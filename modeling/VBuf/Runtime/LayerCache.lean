import VBuf.Lib.AssocTotal
import VBuf.Lib.Recency
import VBuf.Lib.Result

/-!
# The resident working set of the runtime

`Cache` keeps a table of tensors, a queue of their names and a byte counter apart
from each other.  Together they represent one recency list.
-/

namespace VBuf.Runtime

open VBuf.Lib

/-- `TensorRange`. -/
structure TensorRange where
  name : String
  offset : Nat
  length : Nat
  deriving DecidableEq, Repr, Inhabited

/-- `ResidentTensor`. -/
structure ResidentTensor where
  range : TensorRange
  bytes : List UInt8
  deriving DecidableEq, Repr

/-- `RuntimeError`, without the profile errors of `open`. -/
inductive RuntimeError
  | io (error : String)
  | budgetTooSmall (requested budget : Nat)
  | layerNotFound (layer : Nat)
  | invalidTensorRange
  deriving DecidableEq, Repr

namespace ResidentTensor

/-- The key of a resident tensor. -/
def name (tensor : ResidentTensor) : String := tensor.range.name

/-- The bytes that a resident tensor takes. -/
def size (tensor : ResidentTensor) : Nat := tensor.bytes.length

end ResidentTensor

/-- `Cache`.  All counted bytes are in memory at once, so the `u64` sums do not
overflow. -/
structure Cache where
  budget : Nat
  residentBytes : Nat
  values : AssocMap String ResidentTensor
  order : List String

namespace Cache

/-- `Cache::new`. -/
def new (budget : Nat) : Cache where
  budget
  residentBytes := 0
  values := ∅
  order := []

/-- `touch`. -/
def touch (cache : Cache) (name : String) : Cache :=
  { cache with order := cache.order.filter (fun entry => entry ≠ name) ++ [name] }

/-- Remove a value and take its bytes off the counter. -/
def forget (cache : Cache) (name : String) : Cache :=
  match cache.values.lookup name with
  | some value =>
      { cache with
        residentBytes := cache.residentBytes - value.bytes.length
        values := cache.values.erase name }
  | none => cache

/-- The loop of `evict_until`, over the names in the queue. -/
def evictLoop (required : Nat) : List String → Cache → Cache
  | [], cache => { cache with order := [] }
  | oldest :: rest, cache =>
      if cache.budget < cache.residentBytes + required then
        evictLoop required rest (cache.forget oldest)
      else { cache with order := oldest :: rest }

/-- `evict_until`. -/
def evictUntil (cache : Cache) (required : Nat) : Except RuntimeError Cache := do
  rejectIf (cache.budget < required) (.budgetTooSmall required cache.budget)
  pure (evictLoop required cache.order cache)

/-- `insert`. -/
def insert (cache : Cache) (value : ResidentTensor) : Except RuntimeError Cache := do
  let cache ← cache.evictUntil value.bytes.length
  let cache := cache.forget value.range.name
  let cache := { cache with residentBytes := cache.residentBytes + value.bytes.length }
  let cache := cache.touch value.range.name
  pure { cache with values := cache.values.insert value.range.name value }

/-- The step of `release_layer` for one tensor. -/
def release (cache : Cache) (name : String) : Cache :=
  { cache.forget name with order := cache.order.filter (fun entry => entry ≠ name) }

/-- The counter is the sum of the stored lengths and within the budget, and the
queue lists the stored names once each. -/
structure Valid (cache : Cache) : Prop where
  resident : cache.residentBytes = AssocMap.total (fun _ value => value.bytes.length) cache.values
  budget : cache.residentBytes ≤ cache.budget
  nodup : cache.order.Nodup
  perm : cache.order.Perm cache.values.keys

/-! ### The recency list of a cache -/

/-- The table and the counter are those of a list of tensors. -/
structure Stores (cache : Cache) (items : List ResidentTensor) : Prop where
  nodup : (items.map ResidentTensor.name).Nodup
  lookup : ∀ name value, cache.values.lookup name = some value ↔
    value ∈ items ∧ value.name = name
  resident : cache.residentBytes = Recency.total ResidentTensor.size items

/-- The cache holds a list of tensors, the oldest first, within its budget. -/
structure Represents (cache : Cache) (items : List ResidentTensor) : Prop
    extends Stores cache items where
  order : cache.order = items.map ResidentTensor.name
  fits : Recency.total ResidentTensor.size items ≤ cache.budget

variable {cache : Cache} {items : List ResidentTensor} {value : ResidentTensor} {name : String}

@[simp] theorem forget_budget : (cache.forget name).budget = cache.budget := by
  unfold forget
  split <;> rfl

@[simp] theorem forget_order : (cache.forget name).order = cache.order := by
  unfold forget
  split <;> rfl

theorem forget_lookup (other : String) : (cache.forget name).values.lookup other =
    if other = name then none else cache.values.lookup other := by
  unfold forget
  split
  next value h => exact AssocMap.lookup_erase_eq ..
  next h =>
      split
      next heq => rw [heq, h]
      next => rfl

theorem represents_new (budget : Nat) : (new budget).Represents [] := by
  refine ⟨⟨List.nodup_nil, ?_, rfl⟩, rfl, Nat.zero_le _⟩
  simp [new]

/-- The sum over the table is the sum over the list. -/
theorem total_values {values : AssocMap String ResidentTensor}
    (hnodup : (items.map ResidentTensor.name).Nodup)
    (h : ∀ name value, values.lookup name = some value ↔ value ∈ items ∧ value.name = name) :
    AssocMap.total (fun _ value => value.bytes.length) values =
      Recency.total ResidentTensor.size items := by
  induction items generalizing values with
  | nil =>
      have hempty : values = ∅ := by
        apply AList.ext
        apply List.eq_nil_iff_forall_not_mem.2
        intro entry hentry
        have hlookup := AList.mem_lookup_iff.2 hentry
        exact List.not_mem_nil ((h _ _).1 hlookup).1
      rw [hempty]
      rfl
  | cons first rest ih =>
      rw [List.map_cons, List.nodup_cons] at hnodup
      have hfirst := (h first.name first).2 ⟨List.mem_cons_self, rfl⟩
      have hrest := @ih (values.erase first.name) hnodup.2 (by
        intro name value
        rw [AssocMap.lookup_erase_eq]
        constructor
        · intro hlookup
          split at hlookup
          · cases hlookup
          · next hne =>
              obtain ⟨hmem, hname⟩ := (h name value).1 hlookup
              rcases List.mem_cons.1 hmem with rfl | hmem
              · exact absurd hname.symm hne
              · exact ⟨hmem, hname⟩
        · rintro ⟨hmem, rfl⟩
          have hne : value.name ≠ first.name := by
            intro heq
            exact hnodup.1 (heq ▸ List.mem_map_of_mem hmem)
          rw [if_neg hne]
          exact (h _ _).2 ⟨List.mem_cons_of_mem _ hmem, rfl⟩)
      rw [AssocMap.total_erase _ hfirst, hrest, Recency.total_cons]
      rfl

/-- A forgotten name leaves the table with its bytes. -/
theorem Stores.forget (h : cache.Stores items) (name : String) :
    (cache.forget name).Stores (Recency.remove ResidentTensor.name name items) := by
  refine ⟨Recency.nodup_remove h.nodup, ?_, ?_⟩
  · intro other value
    rw [forget_lookup, Recency.mem_remove]
    constructor
    · intro hlookup
      split at hlookup
      · cases hlookup
      · next hne =>
          obtain ⟨hmem, rfl⟩ := (h.lookup other value).1 hlookup
          exact ⟨⟨hmem, hne⟩, rfl⟩
    · rintro ⟨⟨hmem, hne⟩, rfl⟩
      rw [if_neg hne]
      exact (h.lookup _ _).2 ⟨hmem, rfl⟩
  · unfold Cache.forget
    split
    next value hlookup =>
        obtain ⟨hmem, rfl⟩ := (h.lookup name value).1 hlookup
        have htotal := @Recency.total_remove_of_mem _ _ _ _ ResidentTensor.size _ _ h.nodup hmem
        have hsize : value.size = value.bytes.length := rfl
        show cache.residentBytes - value.bytes.length = _
        rw [h.resident]
        omega
    next hlookup =>
        rw [Recency.remove_eq_self]
        · exact h.resident
        · intro hmem
          obtain ⟨value, hvalue, rfl⟩ := List.mem_map.1 hmem
          rw [(h.lookup _ _).2 ⟨hvalue, rfl⟩] at hlookup
          cases hlookup

/-- The eviction loop shrinks the list. -/
theorem Stores.evictLoop (h : cache.Stores items) (required : Nat) :
    (Cache.evictLoop required (items.map ResidentTensor.name) cache).Stores
        (Recency.shrink ResidentTensor.size cache.budget required items) ∧
      (Cache.evictLoop required (items.map ResidentTensor.name) cache).order =
        (Recency.shrink ResidentTensor.size cache.budget required items).map
          ResidentTensor.name ∧
      (Cache.evictLoop required (items.map ResidentTensor.name) cache).budget = cache.budget := by
  induction items generalizing cache with
  | nil => exact ⟨⟨h.nodup, h.lookup, h.resident⟩, rfl, rfl⟩
  | cons oldest rest ih =>
      rw [List.map_cons, Cache.evictLoop, Recency.shrink, h.resident]
      split
      · have hforget := h.forget oldest.name
        rw [Recency.remove_cons_self h.nodup] at hforget
        have hrest := ih hforget
        rw [forget_budget] at hrest
        exact hrest
      · exact ⟨⟨h.nodup, h.lookup, rfl⟩, rfl, rfl⟩

/-- An insertion puts the tensor at the end of the recency list. -/
theorem Represents.insert (h : cache.Represents items) {after : Cache}
    (hinsert : cache.insert value = .ok after) :
    value.size ≤ cache.budget ∧ after.budget = cache.budget ∧
      after.Represents (Recency.put ResidentTensor.name ResidentTensor.size cache.budget items
        value) := by
  simp only [Cache.insert, evictUntil, bind_eq_ok_iff, rejectIf_eq_ok_iff, pure_eq_ok_iff,
    not_lt] at hinsert
  obtain ⟨evicted, ⟨_, hbudget, rfl⟩, rfl⟩ := hinsert
  obtain ⟨hstores, horder, hsame⟩ := h.toStores.evictLoop value.bytes.length
  rw [← h.order] at hstores horder hsame
  have hforget := hstores.forget value.range.name
  have hname : value.range.name = value.name := rfl
  refine ⟨hbudget, ?_, ⟨⟨?_, ?_, ?_⟩, ?_, ?_⟩⟩
  · simp only [touch, forget_budget]
    exact hsame
  · exact Recency.nodup_put h.nodup
  · intro name other
    show AList.lookup name (AList.insert _ _ _) = _ ↔ _
    rw [AssocMap.lookup_insert_eq, Recency.put, List.mem_append, List.mem_singleton]
    constructor
    · intro hlookup
      split at hlookup
      · next heq =>
          cases hlookup
          exact ⟨.inr rfl, heq.symm⟩
      · next hne =>
          obtain ⟨hmem, hother⟩ := (hforget.lookup name other).1 hlookup
          exact ⟨.inl hmem, hother⟩
    · rintro ⟨hmem | rfl, rfl⟩
      · have hne : other.name ≠ value.range.name := (Recency.mem_remove.1 hmem).2
        rw [if_neg hne]
        exact (hforget.lookup _ _).2 ⟨hmem, rfl⟩
      · rw [hname, if_pos rfl]
  · show Cache.residentBytes (Cache.forget _ _) + value.bytes.length = _
    rw [hforget.resident, Recency.put, Recency.total_append, Recency.total_cons,
      Recency.total_nil]
    rfl
  · show (Cache.order _).filter _ ++ [_] = _
    rw [forget_order, horder, Recency.put, List.map_append, Recency.map_remove]
    rfl
  · have hfits := @Recency.total_put_le _ _ _ ResidentTensor.name ResidentTensor.size
      cache.budget items value hbudget
    simp only [touch, forget_budget, hsame]
    exact hfits

/-- A release takes the tensor out of the recency list. -/
theorem Represents.release (h : cache.Represents items) (name : String) :
    (cache.release name).Represents (Recency.remove ResidentTensor.name name items) := by
  have hforget := h.toStores.forget name
  refine ⟨⟨hforget.nodup, hforget.lookup, hforget.resident⟩, ?_, ?_⟩
  · show cache.order.filter _ = _
    rw [h.order, Recency.map_remove]
  · show _ ≤ (cache.forget name).budget
    rw [forget_budget]
    exact (Recency.total_remove_le).trans h.fits

/-- A cache that holds a recency list is valid. -/
theorem Represents.valid (h : cache.Represents items) : cache.Valid := by
  have hnodup : cache.order.Nodup := by
    rw [h.order]
    exact h.nodup
  refine ⟨?_, ?_, hnodup, ?_⟩
  · rw [h.resident, total_values h.nodup h.lookup]
  · rw [h.resident]
    exact h.fits
  · rw [List.perm_ext_iff_of_nodup hnodup cache.values.keys_nodup]
    intro name
    rw [← AList.mem_keys, ← AList.lookup_isSome, Option.isSome_iff_exists, h.order, List.mem_map]
    constructor
    · rintro ⟨value, hvalue⟩
      exact ⟨value, (h.lookup name value).2 hvalue⟩
    · rintro ⟨value, hlookup⟩
      exact ⟨value, (h.lookup name value).1 hlookup⟩

end Cache

end VBuf.Runtime
