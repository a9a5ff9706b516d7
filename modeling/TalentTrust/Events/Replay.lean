import TalentTrust.Events.Indexer

/-!
Replaying a batch of the indexer.

Whether a payload is valid, and what is reported when it is not, depends on the payload
alone; so does the place the sort gives it. A batch therefore reports the same errors
each time it is indexed. Once its keys are stored, every valid payload is a duplicate,
and indexing the batch again leaves the event repository as it is (`indexEvents_stored`).
-/

namespace TalentTrust.Events

open TalentTrust.Lib

namespace Indexer

open Processor (ingest_of_invalid ingest_of_stored ingest_of_save)

/-! ### Payloads -/

def Batch.payloads (batch : Batch) : List Json := batch.events.map (·.payload)

/-- No save of the batch fails. -/
def Batch.Saved (batch : Batch) : Prop := ∀ event ∈ batch.events, event.saveFailure = none

instance (batch : Batch) : Decidable batch.Saved :=
  inferInstanceAs (Decidable (∀ event ∈ batch.events, _))

def accepts (host : Host) (payload : Json) : Bool :=
  match validateContractEventPayload host payload with
  | .ok _ => true
  | .error _ => false

/-- The error that the loop reports for a payload that is not valid. -/
def rejection? (host : Host) (payload : Json) : Option String :=
  match validateContractEventPayload host payload with
  | .ok _ => none
  | .error reason => some (if reason = "" then "Event validation failed" else reason)

theorem map_payload_sortEventsBySequence (events : List Submission) :
    (sortEventsBySequence events).map (·.payload) =
      (events.map (·.payload)).insertionSort fun a b =>
        sequenceLe (extractSequence a) (extractSequence b) = true :=
  List.map_insertionSort _ _ _ events fun _ _ _ _ => Iff.rfl

/-! ### What the loop reports -/

/-- The number of events that the loop has reported on. -/
def Progress.reported (p : Progress) : Nat := p.processedCount + p.duplicateCount + p.errors.length

variable (host : Host) (s : State)

theorem reported_indexEvent (p : Progress) (event : Submission) :
    (indexEvent host p event).reported = p.reported + 1 := by
  unfold indexEvent
  dsimp only
  split <;> simp only [Progress.reported, List.length_append, List.length_singleton] <;> omega

theorem reported_indexEvents (events : List Submission) (p : Progress) :
    (indexEvents host p events).reported = p.reported + events.length := by
  induction events generalizing p with
  | nil => rfl
  | cons event events ih =>
    refine (ih (indexEvent host p event)).trans ?_
    rw [reported_indexEvent, List.length_cons]
    omega

variable {event : Submission}

theorem errors_indexEvent (p : Progress) (saved : event.saveFailure = none) :
    (indexEvent host p event).errors = p.errors ++ (rejection? host event.payload).toList := by
  cases valid : validateContractEventPayload host event.payload with
  | error reason =>
    rw [indexEvent, ingest_of_invalid valid]
    simp [rejection?, valid]
  | ok e =>
    by_cases stored : hasEventKey p.repository (buildEventKey e) = true
    · rw [indexEvent, ingest_of_stored valid stored]
      simp [rejection?, valid]
    · rw [indexEvent, saved, ingest_of_save valid stored]
      simp [rejection?, valid]

variable {events : List Submission}

theorem errors_indexEvents (saved : ∀ event ∈ events, event.saveFailure = none) (p : Progress) :
    (indexEvents host p events).errors =
      p.errors ++ (events.map (·.payload)).filterMap (rejection? host) := by
  induction events generalizing p with
  | nil => simp [indexEvents]
  | cons event events ih =>
    obtain ⟨here, rest⟩ := List.forall_mem_cons.mp saved
    refine (ih rest (indexEvent host p event)).trans ?_
    rw [errors_indexEvent host p here, List.map_cons, List.filterMap_cons, List.append_assoc]
    cases rejection? host event.payload <;> rfl

/-! ### Events that are stored -/

/-- The keys of the valid events are in the repository. -/
def AllStored (repository : EventRepository) (events : List Submission) : Prop :=
  ∀ event ∈ events, ∀ e, validateContractEventPayload host event.payload = .ok e →
    hasEventKey repository (buildEventKey e) = true

theorem indexEvent_stored {host : Host} {p : Progress}
    (stored : ∀ e, validateContractEventPayload host event.payload = .ok e →
      hasEventKey p.repository (buildEventKey e) = true) :
    (indexEvent host p event).repository = p.repository ∧
      (indexEvent host p event).processedCount = p.processedCount ∧
      (indexEvent host p event).duplicateCount =
        p.duplicateCount + if accepts host event.payload then 1 else 0 := by
  cases valid : validateContractEventPayload host event.payload with
  | error reason =>
    rw [indexEvent, ingest_of_invalid valid]
    simp [accepts, valid]
  | ok e =>
    rw [indexEvent, ingest_of_stored valid (stored e valid)]
    simp [accepts, valid]

/-- Over events that are stored the loop changes nothing, and counts the valid ones as
duplicates. -/
theorem indexEvents_stored {host : Host} {p : Progress}
    (stored : AllStored host p.repository events) :
    (indexEvents host p events).repository = p.repository ∧
      (indexEvents host p events).processedCount = p.processedCount ∧
      (indexEvents host p events).duplicateCount =
        p.duplicateCount + (events.map (·.payload)).countP (accepts host) := by
  induction events generalizing p with
  | nil => simp [indexEvents]
  | cons event events ih =>
    obtain ⟨here, rest⟩ := List.forall_mem_cons.mp stored
    obtain ⟨repository, processed, duplicates⟩ := indexEvent_stored here
    have later : AllStored host (indexEvent host p event).repository events := by
      rw [repository]
      exact rest
    obtain ⟨repositoryLater, processedLater, duplicatesLater⟩ := ih later
    refine ⟨repositoryLater.trans repository, processedLater.trans processed, ?_⟩
    refine duplicatesLater.trans ?_
    rw [List.map_cons, List.countP_cons]
    omega

/-! ### Batches -/

/-- The loop of `indexBatch`, at its end. -/
def progress (batch : Batch) : Progress :=
  indexEvents host ⟨s.repository, 0, 0, [], -1⟩ (sortEventsBySequence batch.events)

theorem indexBatch_reports (batch : Batch) :
    (indexBatch host s batch).1.repository = (progress host s batch).repository ∧
      (indexBatch host s batch).2.processedCount = (progress host s batch).processedCount ∧
      (indexBatch host s batch).2.duplicateCount = (progress host s batch).duplicateCount ∧
      (indexBatch host s batch).2.errors = (progress host s batch).errors := by
  unfold indexBatch progress
  dsimp only
  split <;> exact ⟨rfl, rfl, rfl, rfl⟩

variable {batch : Batch}

/-- The keys that are stored after a batch do not depend on the order of its payloads. -/
theorem has_indexBatch_saved (saved : batch.Saved) (k : String) :
    hasEventKey (indexBatch host s batch).1.repository k = true ↔
      hasEventKey s.repository k = true ∨
        ∃ payload ∈ batch.payloads, ∃ e, validateContractEventPayload host payload = .ok e ∧
          buildEventKey e = k := by
  refine (has_indexBatch host s batch k).trans (or_congr_right ?_)
  constructor
  · rintro ⟨event, mem, _, e, valid, key⟩
    exact ⟨event.payload, List.mem_map.mpr ⟨event, mem, rfl⟩, e, valid, key⟩
  · rintro ⟨payload, mem, e, valid, key⟩
    obtain ⟨event, inBatch, rfl⟩ := List.mem_map.mp mem
    exact ⟨event, inBatch, saved event inBatch, e, valid, key⟩

theorem errors_indexBatch (saved : batch.Saved) :
    (indexBatch host s batch).2.errors =
      (batch.payloads.insertionSort fun a b =>
        sequenceLe (extractSequence a) (extractSequence b) = true).filterMap (rejection? host) := by
  rw [(indexBatch_reports host s batch).2.2.2, progress, errors_indexEvents,
    map_payload_sortEventsBySequence]
  · rfl
  · intro event mem
    exact saved event (mem_sortEventsBySequence.mp mem)

theorem reported_indexBatch (batch : Batch) :
    (indexBatch host s batch).2.processedCount + (indexBatch host s batch).2.duplicateCount +
      (indexBatch host s batch).2.errors.length = batch.payloads.length := by
  obtain ⟨_, processed, duplicates, errors⟩ := indexBatch_reports host s batch
  have loop := reported_indexEvents host (sortEventsBySequence batch.events)
    ⟨s.repository, 0, 0, [], -1⟩
  have length : (sortEventsBySequence batch.events).length = batch.payloads.length := by
    rw [Batch.payloads, List.length_map]
    exact (List.perm_insertionSort _ batch.events).length_eq
  rw [processed, duplicates, errors, ← length]
  exact loop.trans (Nat.zero_add _)

/-- A batch counts every payload once and stores the keys of the valid ones. Indexed again,
with the clock further on, it stores nothing, counts the valid payloads as duplicates and
reports the same errors. The order of the payloads makes no difference to the stored keys. -/
theorem replay_stores_nothing (host : Host) (s : State) {first second : Batch} (saved : first.Saved)
    (savedAgain : second.Saved) (same : second.payloads = first.payloads) :
    let once := indexBatch host s first
    let twice := indexBatch host once.1 second
    (once.2.processedCount + once.2.duplicateCount + once.2.errors.length = first.payloads.length ∧
      ∀ k, hasEventKey once.1.repository k = true ↔ hasEventKey s.repository k = true ∨
        ∃ payload ∈ first.payloads, ∃ e, validateContractEventPayload host payload = .ok e ∧
          buildEventKey e = k) ∧
    (twice.2.processedCount = 0 ∧
      twice.2.duplicateCount = first.payloads.countP (accepts host) ∧
      twice.2.errors = once.2.errors ∧ twice.1.repository = once.1.repository) ∧
    ∀ other : Batch, other.Saved → other.payloads.Perm first.payloads → ∀ k,
      hasEventKey (indexBatch host s other).1.repository k = true ↔
        hasEventKey once.1.repository k = true := by
  intro once twice
  have keys := has_indexBatch_saved host s saved
  have stored : AllStored host once.1.repository (sortEventsBySequence second.events) := by
    intro event mem e valid
    have payload : event.payload ∈ first.payloads := by
      rw [← same]
      exact List.mem_map.mpr ⟨event, mem_sortEventsBySequence.mp mem, rfl⟩
    exact (keys _).mpr (.inr ⟨event.payload, payload, e, valid, rfl⟩)
  obtain ⟨repository, processed, duplicates, _⟩ := indexBatch_reports host once.1 second
  obtain ⟨unchanged, none_new, counted⟩ :=
    indexEvents_stored (p := ⟨once.1.repository, 0, 0, [], -1⟩) stored
  have valid : ((sortEventsBySequence second.events).map (·.payload)).countP (accepts host) =
      first.payloads.countP (accepts host) := by
    rw [map_payload_sortEventsBySequence, ← same]
    exact (List.perm_insertionSort _ second.payloads).countP_eq _
  refine ⟨⟨reported_indexBatch host s first, keys⟩, ⟨?_, ?_, ?_, ?_⟩, ?_⟩
  · exact processed.trans none_new
  · refine duplicates.trans (counted.trans ?_)
    rw [valid, Nat.zero_add]
  · exact (errors_indexBatch host once.1 savedAgain).trans
      (same ▸ (errors_indexBatch host s saved).symm)
  · exact repository.trans unchanged
  · intro other savedOther perm k
    rw [has_indexBatch_saved host s savedOther, keys]
    simp [perm.mem_iff]

/-- A batch with a valid payload, a repeated one, one without a sequence and one that is no
object: one duplicate on the first run, two on the second, and two errors on both. -/
theorem replay_stores_nothing_mixed :
    let first : Batch := ⟨"s", [⟨.str "x", "t0", none⟩, ⟨createdPayload "c1" "e1" 5, "t0", none⟩,
      ⟨.obj [], "t0", none⟩, ⟨createdPayload "c1" "e1" 5, "t0", none⟩], "t0"⟩
    let second : Batch := { first with now := "t1" }
    let once := indexBatch lenientHost State.initial first
    let twice := indexBatch lenientHost once.1 second
    once.2.processedCount + once.2.duplicateCount + once.2.errors.length = 4 ∧
      once.2.errors.length = 2 ∧ twice.2.processedCount = 0 ∧ twice.2.duplicateCount = 2 ∧
      twice.2.errors = once.2.errors ∧ twice.1.repository = once.1.repository := by
  intro first second once twice
  have counted : first.payloads.countP (accepts lenientHost) = 2 := by decide +kernel
  have errors : once.2.errors.length = 2 := by decide +kernel
  obtain ⟨⟨total, _⟩, ⟨processed, duplicates, same, unchanged⟩, _⟩ :=
    @replay_stores_nothing lenientHost State.initial first second (by decide) (by decide) rfl
  exact ⟨total, errors, processed, duplicates.trans counted, same, unchanged⟩

end Indexer

end TalentTrust.Events
