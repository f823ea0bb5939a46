import VBuf.Ggml.Prefetch

/-!
# The distances of the prefetch planner

A call of the recursion returns the length of the longest chain of an operation, or a
number over the maximum if there is none.  An operation met while it is being resolved
lies on a cycle, so its memo says the same; the numbers over the maximum grow by one for
each operation of a chain without repeats, which must leave room below `2 ^ 64`.
-/

namespace VBuf.Ggml.Prefetch

open VBuf.Lib

/-! ### The tables -/

section Graph

variable {graph : TensorWaveGraphView} {state : TensorWavePlannerState} {index other value : Nat}

theorem Produces.unique (h : OneProducer graph) (hi : Produces graph index value)
    (ho : Produces graph other value) : index = other := by
  obtain ⟨operation, hget, hvalue⟩ := hi
  obtain ⟨operation', hget', hvalue'⟩ := ho
  have hlt : index < (graph.operations.map TensorWaveOp.outputValue).length := by
    rw [List.length_map]
    exact (List.getElem?_eq_some_iff.1 hget).1
  refine (List.getElem?_inj hlt h).1 ?_
  rw [List.getElem?_map, List.getElem?_map, hget, hget', Option.map_some, Option.map_some, hvalue,
    hvalue']

theorem Produces.lt (h : Produces graph index value) : index < graph.operations.length := by
  obtain ⟨operation, hget, -⟩ := h
  exact (List.getElem?_eq_some_iff.1 hget).1

theorem Needs.lt (h : Needs graph state index other) : other < graph.operations.length := by
  obtain ⟨value, -, hproduces, -⟩ := h
  exact hproduces.lt

/-- Distances are less than the number of operations. -/
theorem HasDistance.lt {distance : Nat} (h : HasDistance graph state index distance)
    (hindex : index < graph.operations.length) : distance < graph.operations.length := by
  have hlt := @IsLongest.lt_card _ _ _ _ h.longest (Finset.range graph.operations.length) (by
    intro n other hwalk
    rw [Finset.mem_range]
    clear h
    induction hwalk with
    | nil => exact hindex
    | cons step _ ih => exact ih step.lt)
  rwa [Finset.card_range] at hlt

end Graph

section Recursion

variable (planning : Planning)

/-- The operation has no longest chain: a cycle or a value without a producer is behind it. -/
def Lost (index : Nat) : Prop := ¬ ∃ distance, HasDistance planning.graph planning.state index distance

/-- The uncompleted operations without a longest chain. -/
noncomputable def lostOperations : Finset Nat := by
  classical
  exact (Finset.range planning.graph.operations.length).filter fun index =>
    Lost planning index ∧ ¬ Completed planning.state index

/-- Those of them that are not being resolved. -/
noncomputable def lostIdle (memo : Memo) : Finset Nat :=
  (lostOperations planning).filter fun index => memo.resolving index = false

/-- The operations that are not being resolved. -/
def idle (memo : Memo) : Finset Nat :=
  (Finset.range planning.graph.operations.length).filter fun index => memo.resolving index = false

/-- An operation comes to the producer of an unavailable value, the inputs up to it being values
of the graph; the inputs `after` are still to come. -/
def Reads (index other : Nat) (after : List TensorWaveRef) : Prop :=
  ∃ operation before value, planning.graph.operations[index]? = some operation ∧
    operation.inputs = before ++ .value value :: after ∧
    (∀ earlier, .value earlier ∈ before → earlier < planning.graph.valueNames.length) ∧
    value < planning.graph.valueNames.length ∧
    ¬ Available planning.graph planning.state value ∧ Produces planning.graph other value

/-- Each of the inputs is a value of the graph that is available or has a producer. -/
def Supplied (inputs : List TensorWaveRef) : Prop :=
  ∀ value, .value value ∈ inputs → value < planning.graph.valueNames.length ∧
    (Available planning.graph planning.state value ∨ ∃ other, Produces planning.graph other value)

/-- A chain of so many operations, without those of a set and without repeats, that ends with
one that has no longest chain; the end may be one of those again.  Behind an unproducible input
the count of an operation starts anew, so the chain goes on through the inputs behind it. -/
inductive Climbs : Set Nat → Nat → Nat → Prop
  | last {visited : Set Nat} {index : Nat} (hlost : Lost planning index) : Climbs visited index 1
  | step {visited : Set Nat} {index other count : Nat} {after : List TensorWaveRef}
      (hfree : index ∉ visited) (hreads : Reads planning index other after)
      (hafter : Supplied planning after) (h : Climbs (insert index visited) other count) :
      Climbs visited index (count + 1)

/-- The operations that a chain past `visited` may come to. -/
noncomputable def unvisited (visited : Set Nat) : Finset Nat := by
  classical
  exact (Finset.range planning.graph.operations.length).filter fun index => index ∉ visited

/-- No chain behind an uncompleted operation is so long that the maximum and the count of the
chain with it reach `2 ^ 64`. -/
def Room : Prop :=
  ∀ index ∈ lostOperations planning, planning.maxDependencyDistance.toNat + 1 < 2 ^ 64 ∧
    ∀ other count after, Reads planning index other after → Climbs planning {index} other count →
      planning.maxDependencyDistance.toNat + count + 1 < 2 ^ 64

/-- The graph, the state and the maximum that the recursion is right for. -/
structure Sound : Prop where
  oneProducer : OneProducer planning.graph
  keepsProduced : KeepsProduced planning.graph planning.state
  operations_lt : planning.graph.operations.length < 2 ^ 32
  room : Room planning

/-- What a call may return: the distance, or a number over the maximum if there is none. -/
structure Right (index value : Nat) : Prop where
  distance : ∀ distance, HasDistance planning.graph planning.state index distance →
    value = distance
  lost : Lost planning index → planning.maxDependencyDistance.toNat < value

/-- What is stored is right. -/
structure MemoInv (memo : Memo) : Prop where
  right : ∀ index, 0 ≤ memo.distances index → Right planning index (memo.distances index).toNat
  small : ∀ index, memo.distances index < 2 ^ 63

/-- What is being resolved has no distance, or led to the operation. -/
def OnStack (memo : Memo) (index : Nat) : Prop :=
  ∀ other, memo.resolving other = true → Lost planning other ∨
    Relation.TransGen (Needs planning.graph planning.state) other index

/-- A call ends what it starts, except for operations without a distance. -/
structure Grows (memo memo' : Memo) : Prop where
  keeps : ∀ index, memo.resolving index = true → memo'.resolving index = true
  fresh : ∀ index, memo'.resolving index = true → memo.resolving index = true ∨ Lost planning index

/-- The operations that are being resolved. -/
def onStack (memo : Memo) : Set Nat := fun index => memo.resolving index = true

/-- How large a number over the maximum may be.  Below `2 ^ 63` it may come out of the memo, and
then grows by one for each operation on the stack; above, it is never stored and counts a chain. -/
def Bounded (memo : Memo) (index value : Nat) : Prop :=
  planning.maxDependencyDistance.toNat < 2 ^ 63 ∧ value ≤ 2 ^ 63 + (lostIdle planning memo).card ∨
    2 ^ 63 ≤ planning.maxDependencyDistance.toNat ∧ ∃ count,
      Climbs planning (onStack memo) index count ∧
        value ≤ planning.maxDependencyDistance.toNat + count

variable {planning} {memo memo' memo'' : Memo} {index other value : Nat}

theorem mem_lostOperations : index ∈ lostOperations planning ↔
    index < planning.graph.operations.length ∧ Lost planning index ∧
      ¬ Completed planning.state index := by
  classical
  rw [lostOperations, Finset.mem_filter, Finset.mem_range]

theorem Grows.refl : Grows planning memo memo := ⟨fun _ h => h, fun _ h => Or.inl h⟩

theorem Grows.trans (h : Grows planning memo memo') (h' : Grows planning memo' memo'') :
    Grows planning memo memo'' :=
  ⟨fun index hindex => h'.keeps index (h.keeps index hindex), fun index hindex =>
    (h'.fresh index hindex).elim (h.fresh index) Or.inr⟩

/-- What leads to a lost operation is lost. -/
theorem Lost.of_needs (h : Lost planning other)
    (hneeds : Needs planning.graph planning.state index other) : Lost planning index := by
  rintro ⟨distance, hdistance⟩
  obtain ⟨e, he, -⟩ := Settles.of_step hdistance hneeds
  exact h ⟨e, he⟩

theorem Climbs.mono {visited fewer : Set Nat} {count : Nat} (hsubset : fewer ⊆ visited)
    (h : Climbs planning visited index count) : Climbs planning fewer index count := by
  induction h generalizing fewer with
  | last hlost => exact .last hlost
  | step hfree hreads hafter _ ih =>
      exact .step (fun hmem => hfree (hsubset hmem)) hreads hafter
        (ih (Set.insert_subset_insert hsubset))

theorem Reads.lt {after : List TensorWaveRef} (h : Reads planning index other after) :
    index < planning.graph.operations.length := by
  obtain ⟨_, _, _, hget, -⟩ := h
  exact (List.getElem?_eq_some_iff.1 hget).1

theorem mem_unvisited {visited : Set Nat} : index ∈ unvisited planning visited ↔
    index < planning.graph.operations.length ∧ index ∉ visited := by
  classical
  rw [unvisited, Finset.mem_filter, Finset.mem_range]

/-- A chain without repeats is no longer than the operations it may come to, and its end. -/
theorem Climbs.count_le {visited : Set Nat} {count : Nat} (h : Climbs planning visited index count) :
    count ≤ (unvisited planning visited).card + 1 := by
  induction h with
  | last _ => exact Nat.le_add_left _ _
  | @step visited index _ _ _ hfree hreads _ _ ih =>
      refine Nat.succ_le_succ (ih.trans (Finset.card_lt_card ?_))
      refine (Finset.ssubset_iff_of_subset fun q hq => ?_).2 ⟨index, ?_, ?_⟩
      · rw [mem_unvisited] at hq ⊢
        exact ⟨hq.1, fun hmem => hq.2 (Set.mem_insert_of_mem _ hmem)⟩
      · exact mem_unvisited.2 ⟨hreads.lt, hfree⟩
      · exact fun hmem => (mem_unvisited.1 hmem).2 (Set.mem_insert _ _)

theorem lostOperations_card_le :
    (lostOperations planning).card ≤ planning.graph.operations.length := by
  classical
  have hle := Finset.card_filter_le (Finset.range planning.graph.operations.length) fun index =>
    Lost planning index ∧ ¬ Completed planning.state index
  rw [Finset.card_range] at hle
  exact hle

end Recursion

/-! ### The loop over the inputs -/

section Scan

variable {planning : Planning} {memo memo' : Memo} {index other value distance k fuel : Nat}
  {seen rest : List TensorWaveRef} {operation : TensorWaveOp} {stack : Set Nat}

/-- The scanned inputs contain a value whose producer, if there is one, has no distance. -/
def Troubled (planning : Planning) (index : Nat) (seen : List TensorWaveRef) : Prop :=
  ∃ value, .value value ∈ seen ∧ ¬ Available planning.graph planning.state value ∧
    ∀ other, Needs planning.graph planning.state index other →
      Produces planning.graph other value → Lost planning other

/-- The number came from a producer behind the scanned inputs, with a chain of its own. -/
def ClimbsSeen (planning : Planning) (stack : Set Nat) (index : Nat) (seen : List TensorWaveRef)
    (distance : Nat) : Prop :=
  ∃ before after value other count, seen = before ++ .value value :: after ∧
    ¬ Available planning.graph planning.state value ∧ Produces planning.graph other value ∧
    Supplied planning after ∧ Climbs planning (insert index stack) other count ∧
    distance ≤ planning.maxDependencyDistance.toNat + (count + 1)

/-- How large the number of a lost operation may be behind the scanned inputs. -/
def ScanBounded (planning : Planning) (stack : Set Nat) (index : Nat) (seen : List TensorWaveRef)
    (k distance : Nat) : Prop :=
  planning.maxDependencyDistance.toNat < 2 ^ 63 ∧ distance ≤ 2 ^ 63 + k ∨
    2 ^ 63 ≤ planning.maxDependencyDistance.toNat ∧
      (distance ≤ planning.maxDependencyDistance.toNat + 1 ∨
        ClimbsSeen planning stack index seen distance)

/-- An input that is available or has a producer keeps the chain. -/
theorem ScanBounded.snoc (h : ScanBounded planning stack index seen k distance)
    {input : TensorWaveRef} (hinput : Supplied planning [input]) :
    ScanBounded planning stack index (seen ++ [input]) k distance := by
  rcases h with hsmall | ⟨hlarge, hfar | hclimbs⟩
  · exact Or.inl hsmall
  · exact Or.inr ⟨hlarge, Or.inl hfar⟩
  · obtain ⟨before, after, value, other, count, rfl, hvalue, hproduces, hafter, hclimbs, hle⟩ :=
      hclimbs
    refine Or.inr ⟨hlarge, Or.inr ⟨before, after ++ [input], value, other, count, ?_, hvalue,
      hproduces, ?_, hclimbs, hle⟩⟩
    · rw [List.append_assoc, List.cons_append]
    · intro later hlater
      rcases List.mem_append.1 hlater with hold | hnew
      · exact hafter later hold
      · exact hinput later hnew

/-- What the loop has found behind the scanned inputs. -/
structure ScanInv (planning : Planning) (stack : Set Nat) (index : Nat) (seen : List TensorWaveRef)
    (k distance : Nat) : Prop where
  inRange : ∀ value, .value value ∈ seen → value < planning.graph.valueNames.length
  reached : ¬ Lost planning index → ∀ value other e, .value value ∈ seen →
    ¬ Available planning.graph planning.state value → Produces planning.graph other value →
    HasDistance planning.graph planning.state other e → e + 1 ≤ distance
  attained : ¬ Lost planning index → distance = 0 ∨ ∃ other e,
    Needs planning.graph planning.state index other ∧
      HasDistance planning.graph planning.state other e ∧ distance = e + 1
  troubled : Troubled planning index seen → planning.maxDependencyDistance.toNat < distance
  bound : Lost planning index → ScanBounded planning stack index seen k distance
  word : distance < 2 ^ 64

/-- An input that is not waited for changes nothing. -/
theorem ScanInv.skip (h : ScanInv planning stack index seen k distance) {input : TensorWaveRef}
    (hinput : ∀ value, input = .value value → value < planning.graph.valueNames.length ∧
      Available planning.graph planning.state value) :
    ScanInv planning stack index (seen ++ [input]) k distance := by
  have hold : ∀ value, .value value ∈ seen ++ [input] →
      ¬ Available planning.graph planning.state value → .value value ∈ seen := by
    intro value hmem hunavailable
    rcases List.mem_append.1 hmem with hseen | hnew
    · exact hseen
    · exact absurd (hinput value (List.mem_singleton.1 hnew).symm).2 hunavailable
  refine ⟨?_, ?_, h.attained, ?_, fun hlost => (h.bound hlost).snoc ?_, h.word⟩
  · intro value hmem
    rcases List.mem_append.1 hmem with hseen | hnew
    · exact h.inRange value hseen
    · exact (hinput value (List.mem_singleton.1 hnew).symm).1
  · intro hfound value other e hmem hunavailable
    exact h.reached hfound value other e (hold value hmem hunavailable) hunavailable
  · rintro ⟨value, hmem, hunavailable, hlost⟩
    exact h.troubled ⟨value, hold value hmem hunavailable, hunavailable, hlost⟩
  · intro value hmem
    have hvalue := hinput value (List.mem_singleton.1 hmem).symm
    exact ⟨hvalue.1, Or.inl hvalue.2⟩

/-- What a value adds whose producer was resolved. -/
theorem ScanInv.producer (hs : Sound planning) (h : ScanInv planning stack index seen k distance)
    (hget : planning.graph.operations[index]? = some operation)
    (hinputs : operation.inputs = seen ++ .value value :: rest)
    (hopen : ¬ Completed planning.state index) (hk : k ≤ (lostOperations planning).card)
    (hunavailable : ¬ Available planning.graph planning.state value)
    (hrange : value < planning.graph.valueNames.length)
    (hneeds : Needs planning.graph planning.state index other)
    (hproduces : Produces planning.graph other value) {result : Nat}
    (hright : Right planning other result)
    (hbound : Lost planning other →
      planning.maxDependencyDistance.toNat < 2 ^ 63 ∧ result + 1 ≤ 2 ^ 63 + k ∨
        2 ^ 63 ≤ planning.maxDependencyDistance.toNat ∧ ∃ count,
          Climbs planning (insert index stack) other count ∧
            result ≤ planning.maxDependencyDistance.toNat + count) :
    ScanInv planning stack index (seen ++ [.value value]) k (max distance (wrap (result + 1))) := by
  have hsmall := hs.operations_lt
  -- The sum does not wrap, be it of a distance or of a number over the maximum.
  have hdistance : ¬ Lost planning other → ∃ e,
      HasDistance planning.graph planning.state other e ∧ result = e ∧ result + 1 < 2 ^ 33 := by
    intro hfound
    obtain ⟨e, he⟩ := not_not.1 hfound
    have heq := hright.distance e he
    have helt := he.lt hproduces.lt
    exact ⟨e, he, heq, by omega⟩
  have hwrap : wrap (result + 1) = result + 1 := by
    refine Nat.mod_eq_of_lt ?_
    by_cases hlost : Lost planning other
    · have hlt := (List.getElem?_eq_some_iff.1 hget).1
      have hmem := mem_lostOperations.2 ⟨hlt, hlost.of_needs hneeds, hopen⟩
      rcases hbound hlost with ⟨hbelow, hle⟩ | ⟨habove, count, hclimbs, hle⟩
      · have hcard := @lostOperations_card_le planning
        omega
      · have hroom := (hs.room index hmem).2 other count rest
          ⟨operation, seen, value, hget, hinputs, h.inRange, hrange, hunavailable, hproduces⟩
          (hclimbs.mono (Set.singleton_subset_iff.2 (Set.mem_insert _ _)))
        omega
    · obtain ⟨e, -, -, hless⟩ := hdistance hlost
      omega
  have hword : max distance (result + 1) < 2 ^ 64 := by
    have hlt := Nat.mod_lt (result + 1) (Nat.two_pow_pos 64)
    have hsum : (result + 1) % 2 ^ 64 = result + 1 := hwrap
    exact Nat.max_lt.2 ⟨h.word, hsum ▸ hlt⟩
  have hsupplied : Supplied planning [.value value] := by
    intro value' hmem
    cases List.mem_singleton.1 hmem
    exact ⟨hrange, Or.inr ⟨other, hproduces⟩⟩
  rw [hwrap]
  refine ⟨?_, ?_, ?_, ?_, ?_, hword⟩
  · intro value' hmem
    rcases List.mem_append.1 hmem with hseen | hnew
    · exact h.inRange value' hseen
    · cases List.mem_singleton.1 hnew
      exact hrange
  · intro hfound value' other' e hmem hunavailable hproduces' he
    rcases List.mem_append.1 hmem with hseen | hnew
    · exact (h.reached hfound value' other' e hseen hunavailable hproduces' he).trans
        (Nat.le_max_left _ _)
    · cases List.mem_singleton.1 hnew
      obtain rfl := Produces.unique hs.oneProducer hproduces hproduces'
      rw [hright.distance e he]
      exact Nat.le_max_right _ _
  · intro hfound
    obtain ⟨e, he, rfl, -⟩ := hdistance fun hlost => hfound (hlost.of_needs hneeds)
    rcases Nat.le_total distance (result + 1) with hle | hle
    · rw [Nat.max_eq_right hle]
      exact Or.inr ⟨other, result, hneeds, he, rfl⟩
    · rw [Nat.max_eq_left hle]
      exact h.attained hfound
  · rintro ⟨value', hmem, hunavailable, hlost⟩
    rcases List.mem_append.1 hmem with hseen | hnew
    · exact (h.troubled ⟨value', hseen, hunavailable, hlost⟩).trans_le (Nat.le_max_left _ _)
    · cases List.mem_singleton.1 hnew
      have hover := hright.lost (hlost other hneeds hproduces)
      omega
  · intro hlost
    have hold := (h.bound hlost).snoc hsupplied
    rcases Nat.le_total (result + 1) distance with hle | hle
    · rw [Nat.max_eq_left hle]
      exact hold
    rw [Nat.max_eq_right hle]
    by_cases hother : Lost planning other
    · rcases hbound hother with ⟨hbelow, hresult⟩ | ⟨habove, count, hclimbs, hresult⟩
      · exact Or.inl ⟨hbelow, hresult⟩
      · exact Or.inr ⟨habove, Or.inr ⟨seen, [], value, other, count, rfl, hunavailable, hproduces,
          nofun, hclimbs, by omega⟩⟩
    · obtain ⟨e, -, -, hless⟩ := hdistance hother
      rcases Nat.lt_or_ge planning.maxDependencyDistance.toNat (2 ^ 63) with hbelow | habove
      · exact Or.inl ⟨hbelow, by omega⟩
      · exact Or.inr ⟨habove, Or.inl (by omega)⟩

/-- After all inputs the number is right. -/
theorem ScanInv.right (hs : Sound planning)
    (hget : planning.graph.operations[index]? = some operation)
    (h : ScanInv planning stack index operation.inputs k distance) : Right planning index distance := by
  constructor
  · intro d hd
    have hfound : ¬ Lost planning index := not_not.2 ⟨d, hd⟩
    refine Settles.unique (settles_of_steps hd.ready_self ?_ (h.attained hfound)) hd
    intro other hneeds
    obtain ⟨e, he, -⟩ := Settles.of_step hd hneeds
    obtain ⟨value, ⟨operation', hget', hmem, hunavailable⟩, hproduces, -⟩ := hneeds
    rw [hget, Option.some.injEq] at hget'
    subst hget'
    exact ⟨e, he, h.reached hfound value other e hmem hunavailable hproduces he⟩
  · intro hlost
    by_contra hnot
    -- Without trouble behind any input the operation would have a distance.
    have hfine : ∀ value, Awaits planning.graph planning.state index value →
        ∃ other, Needs planning.graph planning.state index other ∧
          Produces planning.graph other value ∧ ¬ Lost planning other := by
      rintro value ⟨operation', hget', hmem, hunavailable⟩
      rw [hget, Option.some.injEq] at hget'
      subst hget'
      by_contra hnone
      refine hnot (h.troubled ⟨value, hmem, hunavailable, ?_⟩)
      intro other hneeds hproduces
      by_contra hfound
      exact hnone ⟨other, hneeds, hproduces, hfound⟩
    refine hlost (@exists_settles _ _ _ _ (List.range planning.graph.operations.length) ?_ ?_ ?_)
    · intro value hawaits
      obtain ⟨other, hneeds, hproduces, -⟩ := hfine value hawaits
      obtain ⟨operation', hget', hmem, -⟩ := hawaits
      rw [hget, Option.some.injEq] at hget'
      subst hget'
      exact ⟨h.inRange value hmem, other, hneeds, hproduces⟩
    · exact fun other hneeds => List.mem_range.2 hneeds.lt
    · intro other hneeds
      obtain ⟨value, hawaits, hproduces, -⟩ := hneeds
      obtain ⟨found, -, hfoundProduces, hfound⟩ := hfine value hawaits
      obtain rfl := Produces.unique hs.oneProducer hproduces hfoundProduces
      exact not_not.1 hfound

end Scan

/-! ### The recursion -/

section Distance

variable {planning : Planning} {memo memo' : Memo} {index fuel : Nat}

theorem toInt64_lt {n : Nat} (h : n < 2 ^ 64) : toInt64 n < 2 ^ 63 := by
  unfold toInt64
  split <;> omega

theorem toNat_toInt64 {n : Nat} (h : n < 2 ^ 64) (hpos : 0 ≤ toInt64 n) : (toInt64 n).toNat = n := by
  unfold toInt64 at hpos ⊢
  split
  · exact Int.toNat_natCast n
  · rename_i hlarge
    rw [if_neg hlarge] at hpos
    omega

theorem MemoInv.store (h : MemoInv planning memo) {distance : Nat} (hlt : distance < 2 ^ 64)
    (hright : Right planning index distance) : MemoInv planning (memo.store index distance) := by
  constructor
  · intro other hstored
    by_cases heq : other = index
    · subst heq
      simp only [Memo.store, Function.update_self] at hstored ⊢
      rw [toNat_toInt64 hlt hstored]
      exact hright
    · simp only [Memo.store, Function.update_of_ne heq] at hstored ⊢
      exact h.right other hstored
  · intro other
    by_cases heq : other = index
    · subst heq
      simp only [Memo.store, Function.update_self]
      exact toInt64_lt hlt
    · simp only [Memo.store, Function.update_of_ne heq]
      exact h.small other

/-- The number behind all inputs of an operation counts a chain that starts with it. -/
theorem ScanInv.bounded {k distance : Nat} {operation : TensorWaveOp}
    (hget : planning.graph.operations[index]? = some operation)
    (hfree : memo.resolving index = false) (hlost : Lost planning index)
    (h : ScanInv planning (onStack memo) index operation.inputs k distance)
    (hk : k ≤ (lostIdle planning memo).card) : Bounded planning memo index distance := by
  rcases h.bound hlost with ⟨hbelow, hle⟩ | ⟨habove, hfar | hclimbs⟩
  · exact Or.inl ⟨hbelow, by omega⟩
  · exact Or.inr ⟨habove, 1, .last hlost, hfar⟩
  · obtain ⟨before, after, value, other, count, hinputs, hvalue, hproduces, hafter, hclimbs, hle⟩ :=
      hclimbs
    refine Or.inr ⟨habove, count + 1, .step ?_ ?_ hafter hclimbs, hle⟩
    · intro hmem
      have hresolving : memo.resolving index = true := hmem
      rw [hfree] at hresolving
      cases hresolving
    · rw [hinputs] at h
      exact ⟨operation, before, value, hget, hinputs,
        fun earlier hearlier => h.inRange earlier (List.mem_append_left _ hearlier),
        h.inRange value (List.mem_append_right _ List.mem_cons_self), hvalue, hproduces⟩

/-- An operation met on the stack is lost: if it had a distance it would be on a cycle. -/
theorem OnStack.lost (h : OnStack planning memo index) (hresolving : memo.resolving index = true) :
    Lost planning index := by
  rcases h index hresolving with hlost | hcycle
  · exact hlost
  · rintro ⟨d, hd⟩
    exact hd.longest.not_transGen hcycle

end Distance

end VBuf.Ggml.Prefetch
