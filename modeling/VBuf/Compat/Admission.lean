import VBuf.Compat.InferenceGate

/-!
# Serial admission

The invariant of the gate and its connections, and what follows for every run:
generations are admitted one at a time and in the order of their connections, and
nothing that is over blocks a later one.
-/

namespace VBuf.Compat

open VBuf.Lib

namespace InferenceGate

variable {gate : InferenceGate} {order : Nat}

/-- The watermark takes in the classified orders above it without a gap. -/
theorem advance_spec (fuel : Nat) (classified : Finset Nat) (through : Nat)
    (hfuel : classified.card ≤ fuel) (habove : ∀ x ∈ classified, through ≤ x) :
    (∀ x, (x ∈ (advance fuel classified through).1 ∨ x < (advance fuel classified through).2) ↔
        (x ∈ classified ∨ x < through)) ∧
      (∀ x ∈ (advance fuel classified through).1, (advance fuel classified through).2 < x) ∧
      through ≤ (advance fuel classified through).2 := by
  induction fuel generalizing classified through with
  | zero =>
      have hempty : classified = ∅ := Finset.card_eq_zero.1 (Nat.le_zero.1 hfuel)
      subst hempty
      exact ⟨fun _ => Iff.rfl, fun _ h => absurd h (Finset.notMem_empty _), Nat.le_refl _⟩
  | succ fuel ih =>
      unfold advance
      split
      next hmem =>
          have hcard := Finset.card_erase_of_mem hmem
          have hpos := Finset.card_pos.2 ⟨through, hmem⟩
          have hnext : ∀ x ∈ classified.erase through, through + 1 ≤ x := by
            intro x hx
            obtain ⟨hne, hx⟩ := Finset.mem_erase.1 hx
            have hle := habove x hx
            omega
          obtain ⟨hiff, hlt, hle⟩ := ih (classified.erase through) (through + 1) (by omega) hnext
          refine ⟨?_, hlt, by omega⟩
          intro x
          rw [hiff, Finset.mem_erase]
          constructor
          · intro h
            rcases h with ⟨-, hx⟩ | hx
            · exact Or.inl hx
            · by_cases heq : x = through
              · exact Or.inl (heq ▸ hmem)
              · exact Or.inr (by omega)
          · intro h
            rcases h with hx | hx
            · by_cases heq : x = through
              · exact Or.inr (by omega)
              · exact Or.inl ⟨heq, hx⟩
            · exact Or.inr (by omega)
      next hmem =>
          refine ⟨fun _ => Iff.rfl, ?_, Nat.le_refl _⟩
          intro x hx
          have hle := habove x hx
          have hne : x ≠ through := fun heq => hmem (heq ▸ hx)
          omega

/-- What a gate that classifies an order keeps, and what it gains. -/
structure Classifies (order : Nat) (generation : Bool) (before after : InferenceGate) : Prop where
  classified_iff : ∀ x, (x ∈ after.classified ∨ x < after.classifiedThrough) ↔
    (x ∈ before.classified ∨ x < before.classifiedThrough) ∨ x = order
  ahead : ∀ x ∈ after.classified, after.classifiedThrough < x
  through_le : before.classifiedThrough ≤ after.classifiedThrough
  waiting_eq : after.waitingGenerations =
    if generation = true then insert order before.waitingGenerations else before.waitingGenerations
  active_eq : after.active = before.active
  admitted_eq : after.totalAdmitted = before.totalAdmitted
  cancelled_eq : after.totalCancelledBeforeAdmission = before.totalCancelledBeforeAdmission

theorem markClassified_spec (hahead : ∀ x ∈ gate.classified, gate.classifiedThrough < x)
    (horder : gate.classifiedThrough ≤ order) :
    Classifies order false gate (gate.markClassified order) := by
  have habove : ∀ x ∈ insert order gate.classified, gate.classifiedThrough ≤ x := by
    intro x hx
    rcases Finset.mem_insert.1 hx with rfl | hx
    · exact horder
    · exact Nat.le_of_lt (hahead x hx)
  obtain ⟨hiff, hlt, hle⟩ := advance_spec _ _ _ (Nat.le_refl _) habove
  refine ⟨?_, hlt, hle, rfl, rfl, rfl, rfl⟩
  intro x
  refine (hiff x).trans ?_
  rw [Finset.mem_insert]
  constructor
  · intro h
    rcases h with (heq | hx) | hx
    · exact Or.inr heq
    · exact Or.inl (Or.inl hx)
    · exact Or.inl (Or.inr hx)
  · intro h
    rcases h with (hx | hx) | heq
    · exact Or.inl (Or.inr hx)
    · exact Or.inr hx
    · exact Or.inl (Or.inl heq)

theorem classify_spec (generation : Bool)
    (hahead : ∀ x ∈ gate.classified, gate.classifiedThrough < x)
    (horder : gate.classifiedThrough ≤ order) :
    Classifies order generation gate (gate.classify order generation) := by
  cases generation with
  | false => exact markClassified_spec hahead horder
  | true =>
      have h := @markClassified_spec
        { gate with waitingGenerations := insert order gate.waitingGenerations } order hahead horder
      exact ⟨h.classified_iff, h.ahead, h.through_le, h.waiting_eq, h.active_eq, h.admitted_eq,
        h.cancelled_eq⟩

end InferenceGate

/-- The connection is classified: by its handler, or when its scope was destroyed. -/
def Connection.Classified (connection : Connection) : Prop :=
  connection.scope.classified = true ∨ connection.position = .finished

instance (connection : Connection) : Decidable connection.Classified :=
  inferInstanceAs (Decidable (_ ∨ _))

/-- The connection has been classified as a generation and was admitted. -/
def Connection.Admitted (connection : Connection) : Prop :=
  ∃ lifecycle, connection.scope.lifecycle = some lifecycle ∧ lifecycle.inferenceLeaseAcquires = 1

/-- The connection has been classified as a generation, and was cancelled before an
admission. -/
def Connection.Cancelled (connection : Connection) : Prop :=
  connection.position ≠ .queued ∧
    ∃ lifecycle, connection.scope.lifecycle = some lifecycle ∧ lifecycle.inferenceLeaseAcquires = 0

instance (connection : Connection) : Decidable connection.Admitted :=
  decidable_of_iff ((connection.scope.lifecycle.map RequestLifecycle.inferenceLeaseAcquires) = some 1)
    (by simp [Connection.Admitted, Option.map_eq_some_iff])

instance (connection : Connection) : Decidable connection.Cancelled :=
  decidable_of_iff (connection.position ≠ .queued ∧
    (connection.scope.lifecycle.map RequestLifecycle.inferenceLeaseAcquires) = some 0)
    (by simp [Connection.Cancelled, Option.map_eq_some_iff])

/-- The fields of a scope at each position of its handler. -/
def Connection.Consistent (connection : Connection) : Prop :=
  match connection.position with
  | .parsing => connection.scope.classified = false ∧ connection.scope.acquired = false ∧
      connection.scope.lifecycle = none
  | .control => connection.scope.classified = true ∧ connection.scope.acquired = false ∧
      connection.scope.lifecycle = none
  | .queued | .refused => connection.scope.classified = true ∧ connection.scope.acquired = false ∧
      ∃ lifecycle, connection.scope.lifecycle = some lifecycle ∧
        lifecycle.inferenceLeaseAcquires = 0 ∧ lifecycle.inferenceLeaseReleases = 0
  | .running => connection.scope.classified = true ∧ connection.scope.acquired = true ∧
      ∃ lifecycle, connection.scope.lifecycle = some lifecycle ∧
        lifecycle.inferenceLeaseAcquires = 1 ∧ lifecycle.inferenceLeaseReleases = 0
  | .released => connection.scope.classified = true ∧ connection.scope.acquired = false ∧
      ∃ lifecycle, connection.scope.lifecycle = some lifecycle ∧
        lifecycle.inferenceLeaseAcquires = 1 ∧ lifecycle.inferenceLeaseReleases = 1
  | .finished => ∀ lifecycle, connection.scope.lifecycle = some lifecycle →
      lifecycle.inferenceLeaseAcquires ≤ 1 ∧
        lifecycle.inferenceLeaseReleases = lifecycle.inferenceLeaseAcquires

namespace Server

/-- How many connections have a property. -/
def count (p : Connection → Prop) [DecidablePred p] (server : Server) : Nat :=
  AssocMap.total (fun _ connection => if p connection then 1 else 0) server.connections

/-- The invariant of the gate and its connections. -/
structure Inv (server : Server) : Prop where
  known : ∀ order, server.connections.lookup order ≠ none ↔ order < server.connectionOrder
  scopes : ∀ order connection, server.connections.lookup order = some connection →
    connection.scope.order = order ∧ connection.Consistent
  classified_iff : ∀ order,
    (order ∈ server.gate.classified ∨ order < server.gate.classifiedThrough) ↔
      ∃ connection, server.connections.lookup order = some connection ∧ connection.Classified
  ahead : ∀ order ∈ server.gate.classified, server.gate.classifiedThrough < order
  waiting_iff : ∀ order, order ∈ server.gate.waitingGenerations ↔
    ∃ connection, server.connections.lookup order = some connection ∧ connection.position = .queued
  running : server.count (fun connection => connection.position = .running) =
    if server.gate.active = true then 1 else 0
  admitted : server.gate.totalAdmitted = server.count Connection.Admitted
  cancelled : server.gate.totalCancelledBeforeAdmission = server.count Connection.Cancelled
  served : ∀ order connection, server.connections.lookup order = some connection →
    connection.Admitted → order < server.gate.classifiedThrough ∧
      ∀ other ∈ server.gate.waitingGenerations, order < other

variable {server : Server} {order : Nat} {connection : Connection}

/-- The change of one connection, with the gate as it comes from the call. -/
structure Change (server : Server) (order : Nat) (before : Connection) (gate : InferenceGate)
    (after : Connection) : Prop where
  scope_order : after.scope.order = order
  consistent : after.Consistent
  classified_iff : ∀ x, (x ∈ gate.classified ∨ x < gate.classifiedThrough) ↔
    (x ∈ server.gate.classified ∨ x < server.gate.classifiedThrough) ∨
      x = order ∧ after.Classified
  classified_mono : before.Classified → after.Classified
  ahead : ∀ x ∈ gate.classified, gate.classifiedThrough < x
  through_le : server.gate.classifiedThrough ≤ gate.classifiedThrough
  waiting_iff : ∀ x, x ∈ gate.waitingGenerations ↔
    x ≠ order ∧ x ∈ server.gate.waitingGenerations ∨ x = order ∧ after.position = .queued
  running : (if gate.active = true then 1 else 0) + (if before.position = .running then 1 else 0) =
    (if after.position = .running then 1 else 0) + (if server.gate.active = true then 1 else 0)
  admitted : gate.totalAdmitted + (if before.Admitted then 1 else 0) =
    (if after.Admitted then 1 else 0) + server.gate.totalAdmitted
  cancelled : gate.totalCancelledBeforeAdmission + (if before.Cancelled then 1 else 0) =
    (if after.Cancelled then 1 else 0) + server.gate.totalCancelledBeforeAdmission
  served : after.Admitted → order < gate.classifiedThrough ∧
    ∀ x ∈ gate.waitingGenerations, order < x
  waits_above : ∀ x ∈ gate.waitingGenerations,
    x ∈ server.gate.waitingGenerations ∨ server.gate.classifiedThrough ≤ x

/-- The system stays, or one connection changes. -/
def Advances (server after : Server) : Prop :=
  after = server ∨ ∃ order connection gate changed,
    server.connections.lookup order = some connection ∧
      Change server order connection gate changed ∧ after = server.put order gate changed

theorem Change.advances {before after : Connection} {gate : InferenceGate}
    (hlookup : server.connections.lookup order = some before)
    (h : Change server order before gate after) : Advances server (server.put order gate after) :=
  Or.inr ⟨order, before, gate, after, hlookup, h, rfl⟩

theorem count_put (p : Connection → Prop) [DecidablePred p] (gate : InferenceGate)
    (after : Connection) (hlookup : server.connections.lookup order = some connection) :
    (server.put order gate after).count p + (if p connection then 1 else 0) =
      (if p after then 1 else 0) + server.count p :=
  AssocMap.total_update _ after hlookup

theorem lookup_put (gate : InferenceGate) (after : Connection) (x : Nat) :
    (server.put order gate after).connections.lookup x =
      if x = order then some after else server.connections.lookup x :=
  AssocMap.lookup_insert_eq _ _ _ _

/-- The invariant through the change of one connection. -/
theorem Inv.put (h : server.Inv) (hlookup : server.connections.lookup order = some connection)
    {gate : InferenceGate} {after : Connection} (hchange : Change server order connection gate after) :
    (server.put order gate after).Inv := by
  have hknown : order < server.connectionOrder :=
    (h.known order).1 (hlookup ▸ Option.some_ne_none connection)
  refine ⟨?_, ?_, ?_, hchange.ahead, ?_, ?_, ?_, ?_, ?_⟩
  · intro x
    rw [lookup_put]
    split
    next heq =>
        subst heq
        exact ⟨fun _ => hknown, fun _ => Option.some_ne_none after⟩
    next => exact h.known x
  · intro x c hc
    rw [lookup_put] at hc
    split at hc
    next heq =>
        subst heq
        cases hc
        exact ⟨hchange.scope_order, hchange.consistent⟩
    next => exact h.scopes x c hc
  · intro x
    refine (hchange.classified_iff x).trans ?_
    rw [h.classified_iff, lookup_put]
    split
    next heq =>
        subst heq
        constructor
        · intro hor
          rcases hor with ⟨c, hc, hclassified⟩ | ⟨-, hclassified⟩
          · cases hlookup.symm.trans hc
            exact ⟨after, rfl, hchange.classified_mono hclassified⟩
          · exact ⟨after, rfl, hclassified⟩
        · intro hex
          obtain ⟨c, hc, hclassified⟩ := hex
          cases hc
          exact Or.inr ⟨rfl, hclassified⟩
    next hne =>
        constructor
        · intro hor
          exact hor.resolve_right (fun hand => hne hand.1)
        · exact Or.inl
  · intro x
    refine (hchange.waiting_iff x).trans ?_
    rw [lookup_put, h.waiting_iff]
    split
    next heq =>
        constructor
        · intro hor
          exact ⟨after, rfl, (hor.resolve_left (fun hand => hand.1 heq)).2⟩
        · intro hex
          obtain ⟨c, hc, hqueued⟩ := hex
          cases hc
          exact Or.inr ⟨heq, hqueued⟩
    next hne =>
        constructor
        · intro hor
          exact (hor.resolve_right (fun hand => hne hand.1)).2
        · exact fun hex => Or.inl ⟨hne, hex⟩
  · have hcount := count_put (fun c => c.position = .running) gate after hlookup
    have hrunning := hchange.running
    have hbefore := h.running
    show (server.put order gate after).count _ = if gate.active = true then 1 else 0
    omega
  · have hcount := count_put Connection.Admitted gate after hlookup
    have hadmitted := hchange.admitted
    have hbefore := h.admitted
    show gate.totalAdmitted = _
    omega
  · have hcount := count_put Connection.Cancelled gate after hlookup
    have hcancelled := hchange.cancelled
    have hbefore := h.cancelled
    show gate.totalCancelledBeforeAdmission = _
    omega
  · intro x c hc hadmitted
    rw [lookup_put] at hc
    split at hc
    next heq =>
        subst heq
        cases hc
        exact hchange.served hadmitted
    next =>
        obtain ⟨hlt, hwaiting⟩ := h.served x c hc hadmitted
        refine ⟨Nat.lt_of_lt_of_le hlt hchange.through_le, ?_⟩
        intro y hy
        rcases hchange.waits_above y hy with hold | hnew
        · exact hwaiting y hold
        · exact Nat.lt_of_lt_of_le hlt hnew

theorem Inv.advances (h : server.Inv) {after : Server} (hadvances : Advances server after) :
    after.Inv := by
  rcases hadvances with rfl | ⟨order, connection, gate, changed, hlookup, hchange, rfl⟩
  · exact h
  · exact h.put hlookup hchange

/-! ### The steps of one connection -/

/-- A connection whose handler is parsing is above the watermark. -/
theorem Inv.parsing_above (h : server.Inv)
    (hlookup : server.connections.lookup order = some connection)
    (hposition : connection.position = .parsing) :
    server.gate.classifiedThrough ≤ order ∧ order ∉ server.gate.classified := by
  have hconsistent := (h.scopes order connection hlookup).2
  rw [Connection.Consistent, hposition] at hconsistent
  have hnot : ¬ (order ∈ server.gate.classified ∨ order < server.gate.classifiedThrough) := by
    rw [h.classified_iff]
    intro hex
    obtain ⟨c, hc, hclassified⟩ := hex
    cases hlookup.symm.trans hc
    rcases hclassified with hclassified | hfinished
    · rw [hconsistent.1] at hclassified
      cases hclassified
    · rw [hposition] at hfinished
      cases hfinished
  exact ⟨Nat.le_of_not_lt (fun hlt => hnot (Or.inr hlt)), fun hmem => hnot (Or.inl hmem)⟩

/-- Only queued connections wait. -/
theorem Inv.not_waiting (h : server.Inv)
    (hlookup : server.connections.lookup order = some connection)
    (hposition : connection.position ≠ .queued) : order ∉ server.gate.waitingGenerations := by
  rw [h.waiting_iff]
  intro hex
  obtain ⟨c, hc, hqueued⟩ := hex
  cases hlookup.symm.trans hc
  exact hposition hqueued

/-- The classification of a connection. -/
theorem change_classify (h : server.Inv)
    (hlookup : server.connections.lookup order = some connection)
    (hposition : connection.position = .parsing) (generation : Bool) {after : Connection}
    (horder : after.scope.order = order) (hconsistent : after.Consistent)
    (hclassified : after.Classified) (hqueued : after.position = .queued ↔ generation = true)
    (hrunning : after.position ≠ .running) (hadmitted : ¬ after.Admitted)
    (hcancelled : ¬ after.Cancelled) :
    Change server order connection (server.gate.classify order generation) after := by
  obtain ⟨habove, -⟩ := h.parsing_above hlookup hposition
  have hscope := (h.scopes order connection hlookup).2
  rw [Connection.Consistent, hposition] at hscope
  have hlifecycle := hscope.2.2
  have hnotadmitted : ¬ connection.Admitted := by
    intro hadm
    obtain ⟨l, hl, -⟩ := hadm
    cases hlifecycle.symm.trans hl
  have hnotcancelled : ¬ connection.Cancelled := by
    intro hcan
    obtain ⟨-, l, hl, -⟩ := hcan
    cases hlifecycle.symm.trans hl
  have hwaiting := h.not_waiting hlookup (by rw [hposition]; decide)
  have hspec := InferenceGate.classify_spec generation h.ahead habove
  refine ⟨horder, hconsistent, ?_, fun _ => hclassified, hspec.ahead, hspec.through_le, ?_, ?_, ?_,
    ?_, fun hadm => absurd hadm hadmitted, ?_⟩
  · intro x
    rw [hspec.classified_iff]
    exact or_congr_right ⟨fun heq => ⟨heq, hclassified⟩, fun hand => hand.1⟩
  · intro x
    rw [hspec.waiting_eq, hqueued]
    cases generation with
    | true =>
        rw [if_pos rfl, Finset.mem_insert]
        by_cases heq : x = order
        · exact ⟨fun _ => Or.inr ⟨heq, rfl⟩, fun _ => Or.inl heq⟩
        · exact ⟨fun hor => Or.inl ⟨heq, hor.resolve_left heq⟩,
            fun hor => Or.inr (hor.resolve_right (fun hand => heq hand.1)).2⟩
    | false =>
        rw [if_neg Bool.false_ne_true]
        constructor
        · intro hx
          refine Or.inl ⟨?_, hx⟩
          intro heq
          exact hwaiting (heq ▸ hx)
        · intro hor
          exact (hor.resolve_right (fun hand => Bool.false_ne_true hand.2)).2
  · have hnotrunning : connection.position ≠ .running := by
      rw [hposition]
      decide
    rw [hspec.active_eq, if_neg hrunning, if_neg hnotrunning]
    omega
  · rw [hspec.admitted_eq, if_neg hadmitted, if_neg hnotadmitted]
    omega
  · rw [hspec.cancelled_eq, if_neg hcancelled, if_neg hnotcancelled]
    omega
  · intro x hx
    rw [hspec.waiting_eq] at hx
    split at hx
    · rcases Finset.mem_insert.1 hx with rfl | hx
      · exact Or.inr habove
      · exact Or.inl hx
    · exact Or.inl hx

/-- A step of a classified connection that leaves the set of classified ones. -/
theorem change_classified (h : server.Inv)
    (hlookup : server.connections.lookup order = some connection)
    (hbefore : connection.Classified) {gate : InferenceGate} {after : Connection}
    (horder : after.scope.order = order) (hconsistent : after.Consistent)
    (hafter : after.Classified) (hclassified : gate.classified = server.gate.classified)
    (hthrough : gate.classifiedThrough = server.gate.classifiedThrough)
    (hwaiting : ∀ x, x ∈ gate.waitingGenerations ↔ x ≠ order ∧ x ∈ server.gate.waitingGenerations)
    (hqueued : after.position ≠ .queued)
    (hrunning : (if gate.active = true then 1 else 0) +
        (if connection.position = .running then 1 else 0) =
      (if after.position = .running then 1 else 0) + (if server.gate.active = true then 1 else 0))
    (hadmitted : gate.totalAdmitted + (if connection.Admitted then 1 else 0) =
      (if after.Admitted then 1 else 0) + server.gate.totalAdmitted)
    (hcancelled : gate.totalCancelledBeforeAdmission + (if connection.Cancelled then 1 else 0) =
      (if after.Cancelled then 1 else 0) + server.gate.totalCancelledBeforeAdmission)
    (hserved : after.Admitted → connection.Admitted ∨ server.gate.Admits order) :
    Change server order connection gate after := by
  refine ⟨horder, hconsistent, ?_, fun _ => hafter, ?_, Nat.le_of_eq hthrough.symm, ?_, hrunning,
    hadmitted, hcancelled, ?_, ?_⟩
  · intro x
    rw [hclassified, hthrough]
    refine ⟨Or.inl, fun hor => hor.elim id (fun hand => ?_)⟩
    rw [hand.1, h.classified_iff]
    exact ⟨connection, hlookup, hbefore⟩
  · rw [hclassified, hthrough]
    exact h.ahead
  · intro x
    refine (hwaiting x).trans ⟨Or.inl, fun hor => hor.elim id (fun hand => ?_)⟩
    exact absurd hand.2 hqueued
  · intro hadm
    rw [hthrough]
    rcases hserved hadm with hold | hadmits
    · obtain ⟨hlt, hall⟩ := h.served order connection hlookup hold
      exact ⟨hlt, fun x hx => hall x ((hwaiting x).1 hx).2⟩
    · obtain ⟨-, hlt, -, hall⟩ := hadmits
      refine ⟨hlt, fun x hx => ?_⟩
      obtain ⟨hne, hx⟩ := (hwaiting x).1 hx
      exact Nat.lt_of_le_of_ne (hall x hx) (Ne.symm hne)
  · intro x hx
    exact Or.inl ((hwaiting x).1 hx).2

theorem Connection.not_admitted_of_none {c : Connection} (h : c.scope.lifecycle = none) :
    ¬ c.Admitted ∧ ¬ c.Cancelled := by
  constructor
  · intro hadm
    obtain ⟨l, hl, -⟩ := hadm
    cases h.symm.trans hl
  · intro hcan
    obtain ⟨-, l, hl, -⟩ := hcan
    cases h.symm.trans hl

variable {scope : InferenceAdmissionScope}

theorem step_classifyControl (h : server.Inv)
    (hlookup : server.connections.lookup order = some ⟨scope, .parsing⟩) :
    Advances server (server.put order (scope.classifyControl server.gate).2
      ⟨(scope.classifyControl server.gate).1, .control⟩) := by
  obtain ⟨horder, -, hacquired, hlifecycle⟩ := h.scopes order _ hlookup
  have hscope : scope.order = order := horder
  subst hscope
  have hnone := @Connection.not_admitted_of_none
    ⟨{ scope with classified := true }, .control⟩ hlifecycle
  exact Change.advances hlookup (change_classify h hlookup rfl false rfl ⟨rfl, hacquired, hlifecycle⟩
    (Or.inl rfl) (iff_of_false (fun heq => Position.noConfusion heq) Bool.false_ne_true)
    (fun heq => Position.noConfusion heq) hnone.1 hnone.2)

theorem step_classifyGeneration (h : server.Inv)
    (hlookup : server.connections.lookup order = some ⟨scope, .parsing⟩) :
    Advances server (server.put order (scope.classifyGeneration server.gate).2
      ⟨(scope.classifyGeneration server.gate).1, .queued⟩) := by
  obtain ⟨horder, -, hacquired, -⟩ := h.scopes order _ hlookup
  have hscope : scope.order = order := horder
  subst hscope
  refine Change.advances hlookup (change_classify h hlookup rfl true rfl
    ⟨rfl, hacquired, _, rfl, rfl, rfl⟩ (Or.inl rfl) (iff_of_true rfl rfl)
    (fun heq => Position.noConfusion heq) ?_ ?_)
  · intro hadm
    obtain ⟨l, hl, hone⟩ := hadm
    cases hl
    cases hone
  · exact fun hcan => hcan.1 rfl

/-- The order is taken out of the waiting set and counted as cancelled. -/
theorem cancelLocked_waiting (lifecycle : Option RequestLifecycle)
    (hwaiting : order ∈ server.gate.waitingGenerations) :
    server.gate.cancelLocked order lifecycle =
      (lifecycle.map (fun l => { l with state := .cancelled }),
        { server.gate with
          waitingGenerations := server.gate.waitingGenerations.erase order
          totalCancelledBeforeAdmission := server.gate.totalCancelledBeforeAdmission + 1 }) :=
  if_pos hwaiting

/-- A queued generation that is cancelled. -/
theorem change_cancel (h : server.Inv)
    (hlookup : server.connections.lookup order = some ⟨scope, .queued⟩) {after : Connection}
    (horder : after.scope.order = order) (hconsistent : after.Consistent)
    (hclassified : after.Classified) (hqueued : after.position ≠ .queued)
    (hrunning : after.position ≠ .running) (hadmitted : ¬ after.Admitted)
    (hcancelled : after.Cancelled) :
    Change server order ⟨scope, .queued⟩
      { server.gate with
        waitingGenerations := server.gate.waitingGenerations.erase order
        totalCancelledBeforeAdmission := server.gate.totalCancelledBeforeAdmission + 1 } after := by
  obtain ⟨-, hisclassified, -, l, hl, hzero, -⟩ := h.scopes order _ hlookup
  have hnotadmitted : ¬ (⟨scope, .queued⟩ : Connection).Admitted := by
    intro hadm
    obtain ⟨l', hl', hone⟩ := hadm
    cases hl.symm.trans hl'
    omega
  have hnotcancelled : ¬ (⟨scope, .queued⟩ : Connection).Cancelled := fun hcan => hcan.1 rfl
  refine change_classified h hlookup (Or.inl hisclassified) horder hconsistent hclassified rfl rfl
    (fun x => Finset.mem_erase) hqueued ?_ ?_ ?_ (fun hadm => absurd hadm hadmitted)
  · rw [if_neg hrunning, if_neg (fun heq => Position.noConfusion heq)]
    exact Nat.add_comm _ _
  · rw [if_neg hadmitted, if_neg hnotadmitted]
    exact Nat.add_comm _ _
  · rw [if_pos hcancelled, if_neg hnotcancelled]
    exact Nat.add_comm _ 1

theorem change_admitted (h : server.Inv)
    (hlookup : server.connections.lookup order = some ⟨scope, .queued⟩)
    (hadmits : server.gate.Admits order) {after : Connection}
    (horder : after.scope.order = order) (hconsistent : after.Consistent)
    (hclassified : after.Classified) (hposition : after.position = .running)
    (hadmitted : after.Admitted) :
    Change server order ⟨scope, .queued⟩
      { server.gate with
        waitingGenerations := server.gate.waitingGenerations.erase order
        active := true
        totalAdmitted := server.gate.totalAdmitted + 1 } after := by
  obtain ⟨-, hisclassified, -, l, hl, hzero, -⟩ := h.scopes order _ hlookup
  have hnotadmitted : ¬ (⟨scope, .queued⟩ : Connection).Admitted := by
    intro hadm
    obtain ⟨l', hl', hone⟩ := hadm
    cases hl.symm.trans hl'
    omega
  have hnotcancelled : ¬ (⟨scope, .queued⟩ : Connection).Cancelled := fun hcan => hcan.1 rfl
  have hcancelled : ¬ after.Cancelled := by
    intro hcan
    obtain ⟨-, l₁, hl₁, hz⟩ := hcan
    obtain ⟨l₂, hl₂, hone⟩ := hadmitted
    cases hl₁.symm.trans hl₂
    omega
  refine change_classified h hlookup (Or.inl hisclassified) horder hconsistent hclassified rfl rfl
    (fun x => Finset.mem_erase) (by rw [hposition]; decide) ?_ ?_ ?_ (fun _ => Or.inr hadmits)
  · rw [if_pos rfl, if_pos hposition, if_neg (fun heq => Position.noConfusion heq), hadmits.1,
      if_neg Bool.false_ne_true]
  · rw [if_pos hadmitted, if_neg hnotadmitted]
    exact Nat.add_comm _ 1
  · rw [if_neg hcancelled, if_neg hnotcancelled]
    exact Nat.add_comm _ _

theorem step_acquireRound (h : server.Inv)
    (hlookup : server.connections.lookup order = some ⟨scope, .queued⟩) (cancelled : Bool) :
    Advances server (server.step (.acquireRound order cancelled)) := by
  obtain ⟨horder, hclassified, hacquired, l, hl, hzero, hzero'⟩ := h.scopes order _ hlookup
  have hscope : scope.order = order := horder
  have hwaiting : order ∈ server.gate.waitingGenerations :=
    (h.waiting_iff order).2 ⟨_, hlookup, rfl⟩
  have hlifecycle : scope.lifecycle = some l := hl
  simp only [step, hlookup]
  unfold InferenceAdmissionScope.acquireRound InferenceGate.acquireRound
  simp only [hscope, hlifecycle, Option.getD_some]
  by_cases hcancelled : cancelled = true
  · simp only [if_pos hcancelled, cancelLocked_waiting _ hwaiting, Option.map_some,
      Option.getD_some]
    refine Change.advances hlookup (change_cancel h hlookup rfl ⟨hclassified, rfl, _, rfl, hzero, hzero'⟩
      (Or.inl hclassified) (fun heq => Position.noConfusion heq)
      (fun heq => Position.noConfusion heq) ?_ ⟨fun heq => Position.noConfusion heq, _, rfl, hzero⟩)
    intro hadm
    obtain ⟨l', hl', hone⟩ := hadm
    cases hl'
    have hone' : l.inferenceLeaseAcquires = 1 := hone
    omega
  · simp only [if_neg hcancelled]
    by_cases hadmits : server.gate.Admits order
    · simp only [if_pos hadmits]
      refine Change.advances hlookup (change_admitted h hlookup hadmits rfl
        ⟨hclassified, rfl, _, rfl, ?_, hzero'⟩ (Or.inl hclassified) rfl ⟨_, rfl, ?_⟩)
      · show l.inferenceLeaseAcquires + 1 = 1
        omega
      · show l.inferenceLeaseAcquires + 1 = 1
        omega
    · simp only [if_neg hadmits]
      exact Or.inl rfl

/-- A running connection keeps the gate active. -/
theorem Inv.active_of_running (h : server.Inv)
    (hlookup : server.connections.lookup order = some ⟨scope, .running⟩) :
    server.gate.active = true := by
  have hle := AssocMap.weight_le_total
    (fun _ (c : Connection) => if c.position = .running then 1 else 0) hlookup
  have hrunning := h.running
  by_contra hfree
  rw [if_neg hfree] at hrunning
  have hzero : AssocMap.total (fun _ (c : Connection) => if c.position = .running then 1 else 0)
      server.connections = 0 := hrunning
  rw [hzero, if_pos rfl] at hle
  omega

/-- The end of a running generation. -/
theorem change_release (h : server.Inv)
    (hlookup : server.connections.lookup order = some ⟨scope, .running⟩) {after : Connection}
    (horder : after.scope.order = order) (hconsistent : after.Consistent)
    (hclassified : after.Classified) (hqueued : after.position ≠ .queued)
    (hrunning : after.position ≠ .running) (hadmitted : after.Admitted) :
    Change server order ⟨scope, .running⟩ { server.gate with active := false } after := by
  obtain ⟨-, hisclassified, -, l, hl, hone, -⟩ := h.scopes order _ hlookup
  have hwasadmitted : (⟨scope, .running⟩ : Connection).Admitted := ⟨l, hl, hone⟩
  have hnotcancelled : ∀ c : Connection, c.Admitted → ¬ c.Cancelled := by
    intro c hadm hcan
    obtain ⟨l₁, hl₁, hone₁⟩ := hadm
    obtain ⟨-, l₂, hl₂, hzero⟩ := hcan
    cases hl₁.symm.trans hl₂
    omega
  have hnotwaiting := h.not_waiting hlookup (fun heq => Position.noConfusion heq)
  refine change_classified h hlookup (Or.inl hisclassified) horder hconsistent hclassified rfl rfl
    ?_ hqueued ?_ ?_ ?_ (fun _ => Or.inl hwasadmitted)
  · intro x
    constructor
    · intro hx
      refine ⟨?_, hx⟩
      intro heq
      exact hnotwaiting (heq ▸ hx)
    · exact fun hand => hand.2
  · rw [if_neg Bool.false_ne_true, if_pos rfl, if_neg hrunning, h.active_of_running hlookup,
      if_pos rfl]
  · rw [if_pos hadmitted, if_pos hwasadmitted]
    exact Nat.add_comm _ 1
  · rw [if_neg (hnotcancelled _ hadmitted), if_neg (hnotcancelled _ hwasadmitted)]
    exact Nat.add_comm _ _

theorem step_release (h : server.Inv)
    (hlookup : server.connections.lookup order = some ⟨scope, .running⟩) :
    Advances server (server.step (.release order)) := by
  obtain ⟨horder, hclassified, hacquired, l, hl, hone, hzero⟩ := h.scopes order _ hlookup
  have hscope : scope.order = order := horder
  have hlifecycle : scope.lifecycle = some l := hl
  have hheld : scope.acquired = true := hacquired
  subst hscope
  simp only [step, hlookup]
  unfold InferenceAdmissionScope.release InferenceGate.release
  simp only [if_pos hheld, hlifecycle, Option.getD_some]
  refine Change.advances hlookup (change_release h hlookup rfl ⟨hclassified, rfl, _, rfl, hone, ?_⟩
    (Or.inl hclassified) (fun heq => Position.noConfusion heq)
    (fun heq => Position.noConfusion heq) ⟨_, rfl, hone⟩)
  show l.inferenceLeaseReleases + 1 = 1
  omega

/-- A scope that neither waits nor runs leaves the gate as it is. -/
theorem change_finish (h : server.Inv)
    (hlookup : server.connections.lookup order = some connection)
    (hclassified : connection.Classified) (hqueued : connection.position ≠ .queued)
    (hrunning : connection.position ≠ .running)
    (hends : ∀ l, connection.scope.lifecycle = some l → l.inferenceLeaseAcquires ≤ 1 ∧
      l.inferenceLeaseReleases = l.inferenceLeaseAcquires) :
    Change server order connection server.gate ⟨connection.scope, .finished⟩ := by
  obtain ⟨horder, -⟩ := h.scopes order connection hlookup
  have hnotwaiting := h.not_waiting hlookup hqueued
  have hadmitted : (⟨connection.scope, .finished⟩ : Connection).Admitted ↔ connection.Admitted :=
    Iff.rfl
  have hcancelled : (⟨connection.scope, .finished⟩ : Connection).Cancelled ↔
      connection.Cancelled :=
    and_congr_left (fun _ => ⟨fun _ => hqueued, fun _ heq => Position.noConfusion heq⟩)
  refine change_classified h hlookup hclassified horder hends (Or.inr rfl) rfl rfl ?_
    (fun heq => Position.noConfusion heq) ?_ ?_ ?_ (fun hadm => Or.inl (hadmitted.1 hadm))
  · intro x
    constructor
    · intro hx
      refine ⟨?_, hx⟩
      intro heq
      exact hnotwaiting (heq ▸ hx)
    · exact fun hand => hand.2
  · rw [if_neg hrunning, if_neg (fun heq => Position.noConfusion heq)]
    omega
  · simp only [hadmitted]
    omega
  · simp only [hcancelled]
    omega

/-- The destructor of a scope that neither waits nor runs. -/
theorem Inv.finish {position : Position} (h : server.Inv)
    (hlookup : server.connections.lookup scope.order = some ⟨scope, position⟩)
    (hclassified : scope.classified = true) (hqueued : position ≠ .queued)
    (hrunning : position ≠ .running)
    (hends : ∀ l, scope.lifecycle = some l → l.inferenceLeaseAcquires ≤ 1 ∧
      l.inferenceLeaseReleases = l.inferenceLeaseAcquires) :
    Advances server (server.put scope.order (server.gate.cancel scope.order) ⟨scope, .finished⟩) := by
  have hcancel : server.gate.cancel scope.order = server.gate :=
    congrArg Prod.snd (if_neg (h.not_waiting hlookup hqueued))
  rw [hcancel]
  exact Change.advances hlookup (change_finish h hlookup (Or.inl hclassified) hqueued hrunning hends)

theorem destroy_unclassified (gate : InferenceGate) (h : scope.classified = false) :
    scope.destroy gate = (scope, gate.classify scope.order false) :=
  if_pos h

theorem destroy_idle (gate : InferenceGate) (hclassified : scope.classified = true)
    (hfree : scope.acquired = false) : scope.destroy gate = (scope, gate.cancel scope.order) := by
  unfold InferenceAdmissionScope.destroy
  rw [hclassified, hfree, if_neg (by decide), if_neg (by decide)]

theorem destroy_held (gate : InferenceGate) (hclassified : scope.classified = true)
    (hheld : scope.acquired = true) {l : RequestLifecycle} (hlifecycle : scope.lifecycle = some l) :
    scope.destroy gate =
      ({ scope with
          lifecycle := some { l with inferenceLeaseReleases := l.inferenceLeaseReleases + 1 } },
        { gate with active := false }) := by
  unfold InferenceAdmissionScope.destroy
  rw [hclassified, hheld, hlifecycle, if_neg (by decide), if_pos rfl]
  rfl

theorem step_destroy (h : server.Inv) (order : Nat) : 
    Advances server (server.step (.destroy order)) := by
  cases hlookup : server.connections.lookup order with
  | none =>
      simp only [step, hlookup]
      exact Or.inl rfl
  | some connection =>
      obtain ⟨scope, position⟩ := connection
      obtain ⟨horder, hconsistent⟩ := h.scopes order _ hlookup
      have hscope : scope.order = order := horder
      subst hscope
      simp only [step, hlookup]
      cases position with
      | finished =>
          rw [if_pos rfl]
          exact Or.inl rfl
      | parsing =>
          obtain ⟨hfree, -, hlifecycle⟩ := hconsistent
          have hnone := @Connection.not_admitted_of_none ⟨scope, .finished⟩ hlifecycle
          rw [if_neg (fun heq => Position.noConfusion heq), destroy_unclassified _ hfree]
          refine Change.advances hlookup (change_classify h hlookup rfl false rfl ?_ (Or.inr rfl)
            (iff_of_false (fun heq => Position.noConfusion heq) Bool.false_ne_true)
            (fun heq => Position.noConfusion heq) hnone.1 hnone.2)
          intro l hl
          cases hlifecycle.symm.trans hl
      | control =>
          obtain ⟨hclassified, hfree, hlifecycle⟩ := hconsistent
          rw [if_neg (fun heq => Position.noConfusion heq), destroy_idle _ hclassified hfree]
          refine h.finish hlookup hclassified (fun heq => Position.noConfusion heq)
            (fun heq => Position.noConfusion heq) ?_
          intro l hl
          cases hlifecycle.symm.trans hl
      | refused =>
          obtain ⟨hclassified, hfree, l, hlifecycle, hzero, hzero'⟩ := hconsistent
          rw [if_neg (fun heq => Position.noConfusion heq), destroy_idle _ hclassified hfree]
          refine h.finish hlookup hclassified (fun heq => Position.noConfusion heq)
            (fun heq => Position.noConfusion heq) ?_
          intro l' hl'
          cases hlifecycle.symm.trans hl'
          omega
      | released =>
          obtain ⟨hclassified, hfree, l, hlifecycle, hone, hone'⟩ := hconsistent
          rw [if_neg (fun heq => Position.noConfusion heq), destroy_idle _ hclassified hfree]
          refine h.finish hlookup hclassified (fun heq => Position.noConfusion heq)
            (fun heq => Position.noConfusion heq) ?_
          intro l' hl'
          cases hlifecycle.symm.trans hl'
          omega
      | queued =>
          obtain ⟨hclassified, hfree, l, hlifecycle, hzero, hzero'⟩ := hconsistent
          have hwaiting : scope.order ∈ server.gate.waitingGenerations :=
            (h.waiting_iff scope.order).2 ⟨_, hlookup, rfl⟩
          rw [if_neg (fun heq => Position.noConfusion heq), destroy_idle _ hclassified hfree]
          unfold InferenceGate.cancel
          rw [cancelLocked_waiting none hwaiting]
          refine Change.advances hlookup (change_cancel h hlookup rfl ?_ (Or.inr rfl)
            (fun heq => Position.noConfusion heq) (fun heq => Position.noConfusion heq) ?_
            ⟨fun heq => Position.noConfusion heq, l, hlifecycle, hzero⟩)
          · intro l' hl'
            cases hlifecycle.symm.trans hl'
            omega
          · intro hadm
            obtain ⟨l', hl', hone⟩ := hadm
            cases hlifecycle.symm.trans hl'
            omega
      | running =>
          obtain ⟨hclassified, hheld, l, hlifecycle, hone, hzero⟩ := hconsistent
          rw [if_neg (fun heq => Position.noConfusion heq),
            destroy_held _ hclassified hheld hlifecycle]
          refine Change.advances hlookup (change_release h hlookup rfl ?_ (Or.inr rfl)
            (fun heq => Position.noConfusion heq) (fun heq => Position.noConfusion heq)
            ⟨_, rfl, hone⟩)
          intro l' hl'
          cases hl'
          show l.inferenceLeaseAcquires ≤ 1 ∧ l.inferenceLeaseReleases + 1 = l.inferenceLeaseAcquires
          omega

/-- A new connection, in the position of parsing. -/
theorem step_accept (h : server.Inv) : (server.step .accept).Inv := by
  have hnew : server.connections.lookup server.connectionOrder = none := by
    by_contra hne
    exact Nat.lt_irrefl _ ((h.known _).1 hne)
  have hlookup : ∀ x, (server.step .accept).connections.lookup x =
      if x = server.connectionOrder then
        some ⟨{ order := server.connectionOrder }, .parsing⟩
      else server.connections.lookup x :=
    fun x => AssocMap.lookup_insert_eq _ _ _ _
  have hcount : ∀ (p : Connection → Prop) [DecidablePred p],
      ¬ p ⟨{ order := server.connectionOrder }, .parsing⟩ →
      (server.step .accept).count p = server.count p := by
    intro p _ hp
    have htotal := AssocMap.total_insert_new (fun _ c => if p c then 1 else 0)
      (⟨{ order := server.connectionOrder }, .parsing⟩ : Connection) hnew
    rw [if_neg hp, Nat.zero_add] at htotal
    exact htotal
  have hnone := @Connection.not_admitted_of_none
    ⟨{ order := server.connectionOrder }, .parsing⟩ rfl
  refine ⟨?_, ?_, ?_, h.ahead, ?_, ?_, ?_, ?_, ?_⟩
  · intro x
    rw [hlookup]
    show _ ↔ x < server.connectionOrder + 1
    split
    next heq => exact ⟨fun _ => by omega, fun _ => Option.some_ne_none _⟩
    next hne =>
        rw [h.known]
        omega
  · intro x c hc
    rw [hlookup] at hc
    split at hc
    next heq =>
        cases hc
        exact ⟨heq.symm, rfl, rfl, rfl⟩
    next => exact h.scopes x c hc
  · intro x
    refine (h.classified_iff x).trans ?_
    rw [hlookup]
    split
    next heq =>
        rw [heq, hnew]
        constructor
        · intro hex
          obtain ⟨c, hc, -⟩ := hex
          cases hc
        · intro hex
          obtain ⟨c, hc, hclassified⟩ := hex
          cases hc
          rcases hclassified with hclassified | hclassified <;> cases hclassified
    next => exact Iff.rfl
  · intro x
    refine (h.waiting_iff x).trans ?_
    rw [hlookup]
    split
    next heq =>
        rw [heq, hnew]
        constructor
        · intro hex
          obtain ⟨c, hc, -⟩ := hex
          cases hc
        · intro hex
          obtain ⟨c, hc, hqueued⟩ := hex
          cases hc
          cases hqueued
    next => exact Iff.rfl
  · rw [hcount _ (fun heq => Position.noConfusion heq)]
    exact h.running
  · rw [hcount _ hnone.1]
    exact h.admitted
  · rw [hcount _ hnone.2]
    exact h.cancelled
  · intro x c hc hadmitted
    rw [hlookup] at hc
    split at hc
    · cases hc
      exact absurd hadmitted hnone.1
    · exact h.served x c hc hadmitted

/-- What the destruction of a live scope does. -/
theorem step_destroy_of_lookup {server : Server} {order : Nat} {connection : Connection}
    (hlookup : server.connections.lookup order = some connection)
    (hposition : connection.position ≠ .finished) :
    server.step (.destroy order) =
      server.put order (connection.scope.destroy server.gate).2
        ⟨(connection.scope.destroy server.gate).1, .finished⟩ := by
  rw [step, hlookup]
  exact if_neg hposition

/-- A rejected connection is one that is accepted and whose scope is destroyed. -/
theorem step_reject (server : Server) :
    server.step .reject = (server.step .accept).step (.destroy server.connectionOrder) := by
  have hlookup : (server.step .accept).connections.lookup server.connectionOrder =
      some ⟨{ order := server.connectionOrder }, .parsing⟩ :=
    (AssocMap.lookup_insert_eq _ _ _ _).trans (if_pos rfl)
  have hinsert : (server.connections.insert server.connectionOrder
        (⟨{ order := server.connectionOrder }, .parsing⟩ : Connection)).insert
        server.connectionOrder ⟨{ order := server.connectionOrder }, .finished⟩ =
      server.connections.insert server.connectionOrder
        ⟨{ order := server.connectionOrder }, .finished⟩ := AList.insert_insert _
  have hdestroy : (server.step .accept).step (.destroy server.connectionOrder) =
      (server.step .accept).put server.connectionOrder
        (server.gate.classify server.connectionOrder false)
        ⟨{ order := server.connectionOrder }, .finished⟩ :=
    step_destroy_of_lookup hlookup (fun hposition => by cases hposition)
  rw [hdestroy]
  exact congrArg (Server.mk (server.gate.classify server.connectionOrder false)
    (server.connectionOrder + 1)) hinsert.symm

/-- What a step does, beside the coming of a connection. -/
theorem step_advances (h : server.Inv) (action : Action) :
    Advances server (server.step action) ∨
      Advances (server.step .accept) (server.step action) := by
  cases action with
  | accept => exact Or.inr (Or.inl rfl)
  | reject =>
      right
      rw [step_reject]
      exact step_destroy (step_accept h) server.connectionOrder
  | classifyControl order =>
      left
      simp only [step]
      split
      next scope hlookup => exact step_classifyControl h hlookup
      next => exact Or.inl rfl
  | classifyGeneration order =>
      left
      simp only [step]
      split
      next scope hlookup => exact step_classifyGeneration h hlookup
      next => exact Or.inl rfl
  | acquireRound order cancelled =>
      left
      by_cases hqueued : ∃ scope, server.connections.lookup order = some ⟨scope, .queued⟩
      · obtain ⟨scope, hlookup⟩ := hqueued
        exact step_acquireRound h hlookup cancelled
      · simp only [step]
        split
        next scope hlookup => exact absurd ⟨scope, hlookup⟩ hqueued
        next => exact Or.inl rfl
  | release order =>
      left
      by_cases hrunning : ∃ scope, server.connections.lookup order = some ⟨scope, .running⟩
      · obtain ⟨scope, hlookup⟩ := hrunning
        exact step_release h hlookup
      · simp only [step]
        split
        next scope hlookup => exact absurd ⟨scope, hlookup⟩ hrunning
        next => exact Or.inl rfl
  | destroy order => exact Or.inl (step_destroy h order)

theorem step_inv (h : server.Inv) (action : Action) : (server.step action).Inv := by
  rcases step_advances h action with hadvances | hadvances
  · exact h.advances hadvances
  · exact (step_accept h).advances hadvances

theorem initial_inv : ({} : Server).Inv := by
  refine ⟨?_, ?_, ?_, ?_, ?_, rfl, rfl, rfl, ?_⟩
  · intro x
    exact ⟨fun h => absurd rfl h, fun h => absurd h (Nat.not_lt_zero x)⟩
  · intro x c hc
    cases hc
  · intro x
    constructor
    · intro h
      rcases h with h | h
      · exact absurd h (Finset.notMem_empty x)
      · exact absurd h (Nat.not_lt_zero x)
    · intro h
      obtain ⟨c, hc, -⟩ := h
      cases hc
  · intro x hx
    exact absurd hx (Finset.notMem_empty x)
  · intro x
    constructor
    · intro hx
      exact absurd hx (Finset.notMem_empty x)
    · intro h
      obtain ⟨c, hc, -⟩ := h
      cases hc
  · intro x c hc
    cases hc

theorem run_inv (actions : List Action) (server : Server) (h : server.Inv) :
    (server.run actions).Inv := by
  induction actions generalizing server with
  | nil => exact h
  | cons action rest ih => exact ih (server.step action) (step_inv h action)

/-! ### The order of admissions -/

/-- Whatever comes through the gate from now on is above the order. -/
def Past (order : Nat) (server : Server) : Prop :=
  order < server.gate.classifiedThrough ∧ ∀ other ∈ server.gate.waitingGenerations, order < other

theorem Past.advances {after : Server} (h : server.Past order)
    (hadvances : Advances server after) : after.Past order := by
  rcases hadvances with rfl | ⟨_, connection, gate, changed, _, hchange, rfl⟩
  · exact h
  · refine ⟨Nat.lt_of_lt_of_le h.1 hchange.through_le, ?_⟩
    intro x hx
    rcases hchange.waits_above x hx with hold | hnew
    · exact h.2 x hold
    · exact Nat.lt_of_lt_of_le h.1 hnew

theorem Past.step (hinv : server.Inv) (h : server.Past order) (action : Action) :
    (server.step action).Past order := by
  rcases step_advances hinv action with hadvances | hadvances
  · exact h.advances hadvances
  · have haccept : (server.step .accept).Past order := h
    exact haccept.advances hadvances

/-- An admission is a queued connection that passes the test. -/
theorem admission_spec {action : Action} (h : server.admission action = some order) :
    ∃ scope, action = .acquireRound order false ∧
      server.connections.lookup order = some ⟨scope, .queued⟩ ∧ server.gate.Admits order := by
  unfold admission at h
  split at h
  next x cancelled =>
      split at h
      next scope hlookup =>
          split at h
          next hcond =>
              cases h
              exact ⟨scope, congrArg (Action.acquireRound order) hcond.1, hlookup, hcond.2⟩
          next => cases h
      next => cases h
  next => cases h

theorem past_of_admission (h : server.Inv) {action : Action}
    (hadmission : server.admission action = some order) : (server.step action).Past order := by
  obtain ⟨scope, rfl, hlookup, hadmits⟩ := admission_spec hadmission
  obtain ⟨horder, -⟩ := h.scopes order _ hlookup
  have hscope : scope.order = order := horder
  have hgate : (server.step (.acquireRound order false)).gate =
      { server.gate with
        waitingGenerations := server.gate.waitingGenerations.erase order
        active := true
        totalAdmitted := server.gate.totalAdmitted + 1 } := by
    simp only [step, hlookup]
    unfold InferenceAdmissionScope.acquireRound InferenceGate.acquireRound
    simp only [hscope, Bool.false_eq_true, if_false, if_pos hadmits]
    rfl
  unfold Past
  rw [hgate]
  refine ⟨hadmits.2.1, fun x hx => ?_⟩
  obtain ⟨hne, hx⟩ := Finset.mem_erase.1 hx
  exact Nat.lt_of_le_of_ne (hadmits.2.2.2 x hx) (Ne.symm hne)

/-- What is admitted after an order has passed is above it. -/
theorem admissions_above (actions : List Action) (server : Server) (hinv : server.Inv)
    (hpast : server.Past order) : ∀ x ∈ server.admissions actions, order < x := by
  induction actions generalizing server with
  | nil =>
      intro x hx
      cases hx
  | cons action rest ih =>
      intro x hx
      rcases List.mem_append.1 hx with hx | hx
      · obtain ⟨-, -, -, hadmits⟩ := admission_spec (Option.mem_toList.1 hx)
        exact hpast.2 x hadmits.2.2.1
      · exact ih (server.step action) (step_inv hinv action) (hpast.step hinv action) x hx

theorem admissions_increasing (actions : List Action) (server : Server) (hinv : server.Inv) :
    (server.admissions actions).Pairwise (· < ·) := by
  induction actions generalizing server with
  | nil => exact List.Pairwise.nil
  | cons action rest ih =>
      unfold admissions
      refine List.pairwise_append.2 ⟨?_, ih _ (step_inv hinv action), ?_⟩
      · cases server.admission action with
        | none => exact List.Pairwise.nil
        | some x => exact List.pairwise_singleton _ x
      · intro x hx y hy
        exact admissions_above rest _ (step_inv hinv action)
          (past_of_admission hinv (Option.mem_toList.1 hx)) y hy

theorem cancelLocked_totalAdmitted (gate : InferenceGate) (order : Nat)
    (lifecycle : Option RequestLifecycle) :
    (gate.cancelLocked order lifecycle).2.totalAdmitted = gate.totalAdmitted := by
  unfold InferenceGate.cancelLocked
  split <;> rfl

/-- The counter of the gate counts the admissions. -/
theorem totalAdmitted_step (h : server.Inv) (action : Action) :
    (server.step action).gate.totalAdmitted =
      server.gate.totalAdmitted + (server.admission action).toList.length := by
  cases action with
  | accept => rfl
  | reject => rfl
  | classifyControl order =>
      simp only [step]
      split <;> rfl
  | classifyGeneration order =>
      simp only [step]
      split <;> rfl
  | acquireRound order cancelled =>
      simp only [step, admission]
      split
      next scope hlookup =>
          obtain ⟨horder, -⟩ := h.scopes order _ hlookup
          have hscope : scope.order = order := horder
          unfold InferenceAdmissionScope.acquireRound InferenceGate.acquireRound
          rw [hscope]
          cases cancelled with
          | true =>
              simp only [if_true, Bool.true_eq_false, false_and, if_false]
              exact cancelLocked_totalAdmitted _ _ _
          | false =>
              by_cases hadmits : server.gate.Admits order
              · simp only [Bool.false_eq_true, if_false, true_and, if_pos hadmits]
                rfl
              · simp only [Bool.false_eq_true, if_false, true_and, if_neg hadmits]
                rfl
      next => rfl
  | release order =>
      simp only [step]
      split
      next scope _ =>
          unfold InferenceAdmissionScope.release
          split <;> rfl
      next => rfl
  | destroy order =>
      simp only [step]
      split
      next scope position _ =>
          split
          next => rfl
          next =>
              unfold InferenceAdmissionScope.destroy
              split
              next => rfl
              next =>
                  split
                  next => rfl
                  next => exact cancelLocked_totalAdmitted _ _ _
      next => rfl

theorem totalAdmitted_run (actions : List Action) (server : Server) (h : server.Inv) :
    (server.run actions).gate.totalAdmitted =
      server.gate.totalAdmitted + (server.admissions actions).length := by
  induction actions generalizing server with
  | nil => rfl
  | cons action rest ih =>
      have hrest := ih (server.step action) (step_inv h action)
      have hstep := totalAdmitted_step h action
      have hlength : (server.admissions (action :: rest)).length =
          (server.admission action).toList.length +
            ((server.step action).admissions rest).length := List.length_append
      show ((server.step action).run rest).gate.totalAdmitted = _
      omega

/-! ### What holds in every run -/

/-- Everything before a waiting generation is classified: the watermark has passed it. -/
theorem Inv.through_of_waiting (h : server.Inv) (hwaiting : order ∈ server.gate.waitingGenerations)
    (hearlier : ∀ x < order, ∃ c, server.connections.lookup x = some c ∧ c.Classified) :
    order < server.gate.classifiedThrough := by
  obtain ⟨c, hlookup, hqueued⟩ := (h.waiting_iff order).1 hwaiting
  have hconsistent := (h.scopes order c hlookup).2
  rw [Connection.Consistent, hqueued] at hconsistent
  rcases (h.classified_iff order).2 ⟨c, hlookup, Or.inl hconsistent.1⟩ with hmem | hlt
  · -- The watermark itself would be an unclassified order below.
    have hahead := h.ahead order hmem
    rcases (h.classified_iff _).2 (hearlier _ hahead) with hmem' | hlt
    · exact absurd (h.ahead _ hmem') (Nat.lt_irrefl _)
    · exact absurd hlt (Nat.lt_irrefl _)
  · exact hlt

/-- A generation is in one of three places. -/
theorem Inv.fate (h : server.Inv) (hlookup : server.connections.lookup order = some connection)
    (hgeneration : connection.scope.lifecycle ≠ none) :
    connection.position = .queued ∧ ¬ connection.Admitted ∧ ¬ connection.Cancelled ∨
      connection.position ≠ .queued ∧ connection.Admitted ∧ ¬ connection.Cancelled ∨
      connection.position ≠ .queued ∧ ¬ connection.Admitted ∧ connection.Cancelled := by
  obtain ⟨l, hl⟩ := Option.ne_none_iff_exists'.1 hgeneration
  have hconsistent := (h.scopes order connection hlookup).2
  have hle : l.inferenceLeaseAcquires ≤ 1 := by
    unfold Connection.Consistent at hconsistent
    split at hconsistent
    · cases hl.symm.trans hconsistent.2.2
    · cases hl.symm.trans hconsistent.2.2
    · obtain ⟨-, -, l', hl', hzero, -⟩ := hconsistent
      cases hl.symm.trans hl'
      omega
    · obtain ⟨-, -, l', hl', hzero, -⟩ := hconsistent
      cases hl.symm.trans hl'
      omega
    · obtain ⟨-, -, l', hl', hone, -⟩ := hconsistent
      cases hl.symm.trans hl'
      omega
    · obtain ⟨-, -, l', hl', hone, -⟩ := hconsistent
      cases hl.symm.trans hl'
      omega
    · exact (hconsistent l hl).1
  have hadmitted : connection.Admitted ↔ l.inferenceLeaseAcquires = 1 := by
    constructor
    · intro hadm
      obtain ⟨l', hl', hone⟩ := hadm
      cases hl.symm.trans hl'
      exact hone
    · exact fun hone => ⟨l, hl, hone⟩
  have hcancelled : connection.Cancelled ↔
      connection.position ≠ .queued ∧ l.inferenceLeaseAcquires = 0 := by
    constructor
    · intro hcan
      obtain ⟨hne, l', hl', hzero⟩ := hcan
      cases hl.symm.trans hl'
      exact ⟨hne, hzero⟩
    · exact fun hand => ⟨hand.1, l, hl, hand.2⟩
  rw [hadmitted, hcancelled]
  by_cases hqueued : connection.position = .queued
  · left
    rw [Connection.Consistent, hqueued] at hconsistent
    obtain ⟨-, -, l', hl', hzero, -⟩ := hconsistent
    cases hl.symm.trans hl'
    exact ⟨hqueued, by omega, fun hand => hand.1 hqueued⟩
  · right
    by_cases hone : l.inferenceLeaseAcquires = 1
    · exact Or.inl ⟨hqueued, hone, by omega⟩
    · exact Or.inr ⟨hqueued, hone, hqueued, by omega⟩

/-- Safety and fairness of the admission, in every run: one generation at a time, in
the order of the connections, counted once, and never blocked by what is over. -/
theorem serial_admission (actions : List Action) :
    let server := ({} : Server).run actions
    server.count (fun connection => connection.position = .running) ≤ 1 ∧
      (({} : Server).admissions actions).Pairwise (· < ·) ∧
      (∀ action order, server.admission action = some order → ∀ earlier < order,
        ∃ connection, server.connections.lookup earlier = some connection ∧
          connection.Classified ∧ connection.position ≠ .queued) ∧
      server.gate.totalAdmitted = (({} : Server).admissions actions).length ∧
      server.gate.totalAdmitted = server.count Connection.Admitted ∧
      server.gate.totalCancelledBeforeAdmission = server.count Connection.Cancelled ∧
      (∀ order connection, server.connections.lookup order = some connection →
        connection.scope.lifecycle ≠ none →
        connection.position = .queued ∧ ¬ connection.Admitted ∧ ¬ connection.Cancelled ∨
          connection.position ≠ .queued ∧ connection.Admitted ∧ ¬ connection.Cancelled ∨
          connection.position ≠ .queued ∧ ¬ connection.Admitted ∧ connection.Cancelled) ∧
      (∀ order connection lifecycle, server.connections.lookup order = some connection →
        connection.position = .finished → connection.scope.lifecycle = some lifecycle →
        lifecycle.inferenceLeaseReleases = lifecycle.inferenceLeaseAcquires) ∧
      (server.gate.active = false → ∀ order ∈ server.gate.waitingGenerations,
        (∀ other ∈ server.gate.waitingGenerations, order ≤ other) →
        (∀ earlier < order, ∃ connection, server.connections.lookup earlier = some connection ∧
          connection.Classified) →
        server.gate.Admits order) := by
  intro server
  have hinv : server.Inv := run_inv actions {} initial_inv
  refine ⟨?_, admissions_increasing actions {} initial_inv, ?_,
    (totalAdmitted_run actions {} initial_inv).trans (Nat.zero_add _), hinv.admitted, hinv.cancelled,
    fun order connection hlookup => hinv.fate hlookup, ?_, ?_⟩
  · rw [hinv.running]
    split <;> decide
  · intro action order hadmission earlier hlt
    obtain ⟨scope, -, -, hadmits⟩ := admission_spec hadmission
    obtain ⟨connection, hlookup, hclassified⟩ :=
      (hinv.classified_iff earlier).1 (Or.inr (Nat.lt_trans hlt hadmits.2.1))
    refine ⟨connection, hlookup, hclassified, ?_⟩
    intro hqueued
    have hle := hadmits.2.2.2 earlier ((hinv.waiting_iff earlier).2 ⟨connection, hlookup, hqueued⟩)
    omega
  · intro order connection lifecycle hlookup hfinished hlifecycle
    have hconsistent := (hinv.scopes order connection hlookup).2
    rw [Connection.Consistent, hfinished] at hconsistent
    exact (hconsistent lifecycle hlifecycle).2
  · intro hfree order hwaiting hfirst hearlier
    exact ⟨hfree, hinv.through_of_waiting hwaiting hearlier, hwaiting, hfirst⟩

end Server

end VBuf.Compat
