import TalentTrust.Events.Processor

/-!
`ContractEventIndexer`: batches of events ingested in sequence order, with a
cursor per source.

What a batch does is said once: which keys it stores (`has_indexBatch`) and
where it puts the cursor (`lastSequence?_indexBatch`), namely at the highest
sequence among the payloads it indexed. The cursor is written whatever it was
before, so it keeps its height exactly when some indexed payload is at least
that high; and it is raised whatever failed on the way, so it passes a payload
that was not saved exactly when a higher one was indexed.
-/

namespace TalentTrust.Events

open TalentTrust.Lib

namespace Indexer

open Processor (Thrown ingest ingest_of_invalid ingest_of_stored ingest_of_failure ingest_of_save)

/-! ### The indexer -/

/-- One element of a batch. `receivedAt` is the clock when it is saved, and
`saveFailure` how `saveEvent` fails on it, if it does. -/
structure Submission where
  payload : Json
  receivedAt : String
  saveFailure : Option Thrown
  deriving DecidableEq

structure IndexerCursor where
  sourceId : String
  lastSequence : Nat
  updatedAt : String
  deriving DecidableEq

structure State where
  repository : EventRepository
  /-- `InMemoryCursorRepository.cursorsBySourceId`. -/
  cursors : OrderedMap String IndexerCursor
  deriving DecidableEq

def State.initial : State := ⟨.empty, .empty⟩

/-- A call `indexBatch(sourceId, events)`; `now` is the clock when the cursor is written. -/
structure Batch where
  sourceId : String
  events : List Submission
  now : String
  deriving DecidableEq

structure IndexerBatchResult where
  processedCount : Nat
  duplicateCount : Nat
  errors : List String
  newCursor : Option IndexerCursor
  deriving DecidableEq

/-- `extractSequence`, with `none` for `Infinity`. -/
def extractSequence (event : Json) : Option Nat := sequenceOf? event

def updateMaxSequence (event : Json) (currentMax : Int) : Int :=
  match extractSequence event with
  | some seq => max currentMax seq
  | none => currentMax

/-- The order of the sort; two infinite sequences compare equal. -/
def sequenceLe : Option Nat → Option Nat → Bool
  | _, none => true
  | none, some _ => false
  | some a, some b => a ≤ b

/-- `sortEventsBySequence`: a stable sort, ties in the order of submission. -/
def sortEventsBySequence (events : List Submission) : List Submission :=
  events.insertionSort fun a b =>
    sequenceLe (extractSequence a.payload) (extractSequence b.payload) = true

/-- The variables of the loop of `indexBatch`. -/
structure Progress where
  repository : EventRepository
  processedCount : Nat
  duplicateCount : Nat
  errors : List String
  maxSequence : Int

def indexEvent (host : Host) (p : Progress) (event : Submission) : Progress :=
  let ingested := ingest host p.repository event.payload event.receivedAt event.saveFailure
  match ingested.2 with
  | .ok (.accepted _) =>
    { p with
      repository := ingested.1
      processedCount := p.processedCount + 1
      maxSequence := updateMaxSequence event.payload p.maxSequence }
  | .ok (.duplicate _) =>
    { p with
      repository := ingested.1
      duplicateCount := p.duplicateCount + 1
      maxSequence := updateMaxSequence event.payload p.maxSequence }
  | .ok (.invalid reason) =>
    { p with
      repository := ingested.1
      errors := p.errors ++ [if reason = "" then "Event validation failed" else reason] }
  | .error thrown =>
    { p with
      repository := ingested.1
      errors := p.errors ++ ["Event processing error: " ++
        match thrown with
        | .error message => message
        | .other => "unknown"] }

def indexEvents (host : Host) (p : Progress) (events : List Submission) : Progress :=
  events.foldl (indexEvent host) p

def updateCursor (cursors : OrderedMap String IndexerCursor) (sourceId : String)
    (newSequence : Nat) (now : String) : OrderedMap String IndexerCursor × IndexerCursor :=
  (cursors.set sourceId ⟨sourceId, newSequence, now⟩, ⟨sourceId, newSequence, now⟩)

variable (host : Host) (s : State) (batch : Batch)

def indexBatch : State × IndexerBatchResult :=
  let p := indexEvents host ⟨s.repository, 0, 0, [], -1⟩ (sortEventsBySequence batch.events)
  if 0 ≤ p.maxSequence then
    let updated := updateCursor s.cursors batch.sourceId p.maxSequence.toNat batch.now
    (⟨p.repository, updated.1⟩, ⟨p.processedCount, p.duplicateCount, p.errors, some updated.2⟩)
  else (⟨p.repository, s.cursors⟩, ⟨p.processedCount, p.duplicateCount, p.errors, none⟩)

/-- The state a call of `indexBatch` leaves. -/
def step : State := (indexBatch host s batch).1

structure CursorResumeResult where
  cursor : Option IndexerCursor
  resumeFromSequence : Int
  isFreshStart : Bool
  deriving DecidableEq

def resumeFromCursor (sourceId : String) (fromSequence : Option Int) : CursorResumeResult :=
  match fromSequence, s.cursors.get? sourceId with
  | some sequence, cursor => ⟨cursor, sequence, cursor.isNone⟩
  | none, none => ⟨none, 0, true⟩
  | none, some cursor => ⟨some cursor, cursor.lastSequence + 1, false⟩

/-- The stored `lastSequence` of a source. -/
def lastSequence? (sourceId : String) : Option Nat :=
  (s.cursors.get? sourceId).map IndexerCursor.lastSequence

/-! ### What one event does -/

/-- The submission stores key `k` unless it is there already. -/
def Saves (k : String) (event : Submission) : Prop :=
  event.saveFailure = none ∧ ∃ e, validateContractEventPayload host event.payload = .ok e ∧
    buildEventKey e = k

/-- The sequence of a submission that is indexed over `repository`: a valid one
whose key is stored already or whose save does not fail. -/
def indexedSequence? (repository : EventRepository) (event : Submission) : Option Nat :=
  match validateContractEventPayload host event.payload with
  | .ok e =>
    if hasEventKey repository (buildEventKey e) = true ∨ event.saveFailure = none then
      some e.sequence else none
  | .error _ => none

variable {host : Host} {event : Submission} {n : Nat}

theorem indexedSequence?_eq_some_iff {repository : EventRepository} :
    indexedSequence? host repository event = some n ↔
      ∃ e, validateContractEventPayload host event.payload = .ok e ∧ e.sequence = n ∧
        (hasEventKey repository (buildEventKey e) = true ∨ event.saveFailure = none) := by
  unfold indexedSequence?
  cases validateContractEventPayload host event.payload with
  | error reason => simp
  | ok e =>
    by_cases h : hasEventKey repository (buildEventKey e) = true ∨ event.saveFailure = none
    · simp [h]
    · simp [h]

theorem has_set (repository : EventRepository) (k j : String) (e : PersistedContractEvent) :
    hasEventKey (repository.set k e) j = true ↔ hasEventKey repository j = true ∨ k = j := by
  unfold hasEventKey OrderedMap.has
  rw [OrderedMap.get?_set]
  by_cases h : j = k
  · simp [h]
  · simp [h, Ne.symm h]

theorem indexEvent_spec (host : Host) (p : Progress) (event : Submission) :
    (∀ k, hasEventKey (indexEvent host p event).repository k = true ↔
      hasEventKey p.repository k = true ∨ Saves host k event) ∧
    (indexEvent host p event).maxSequence =
      match indexedSequence? host p.repository event with
      | some n => max p.maxSequence n
      | none => p.maxSequence := by
  cases valid : validateContractEventPayload host event.payload with
  | error reason =>
    rw [indexEvent, ingest_of_invalid valid]
    simp [indexedSequence?, Saves, valid]
  | ok e =>
    have saves_iff : ∀ k, Saves host k event ↔ event.saveFailure = none ∧ buildEventKey e = k := by
      simp [Saves, valid]
    have sequence := (validateContractEventPayload_ok_iff.mp valid).sequence
    by_cases stored : hasEventKey p.repository (buildEventKey e) = true
    · rw [indexEvent, ingest_of_stored valid stored]
      refine ⟨fun k => ?_, by
        simp [indexedSequence?, valid, stored, updateMaxSequence, extractSequence, sequence]⟩
      rw [saves_iff]
      constructor
      · exact .inl
      · rintro (h | ⟨-, rfl⟩)
        · exact h
        · exact stored
    · cases failure : event.saveFailure with
      | some thrown =>
        rw [indexEvent, failure, ingest_of_failure valid stored]
        simp [indexedSequence?, saves_iff, valid, stored, failure]
      | none =>
        rw [indexEvent, failure, ingest_of_save valid stored]
        refine ⟨fun k => ?_, by
          simp [indexedSequence?, valid, failure, updateMaxSequence, extractSequence, sequence]⟩
        simp [saveEvent, persisted, has_set, saves_iff, failure]

/-! ### What the loop does -/

theorem has_indexEvents (host : Host) (k : String) : ∀ (events : List Submission) (p : Progress),
    hasEventKey (indexEvents host p events).repository k = true ↔
      hasEventKey p.repository k = true ∨ ∃ event ∈ events, Saves host k event
  | [], p => by simp [indexEvents]
  | event :: events, p => by
      have ih := has_indexEvents host k events (indexEvent host p event)
      rw [show indexEvents host p (event :: events) =
        indexEvents host (indexEvent host p event) events from rfl, ih,
        (indexEvent_spec host p event).1]
      simp [or_assoc]

/-- A submission indexed after `event` would have been indexed before it, or
has the sequence of `event`. -/
theorem indexedSequence?_of_indexEvent {p : Progress} {later : Submission}
    (h : indexedSequence? host (indexEvent host p event).repository later = some n) :
    indexedSequence? host p.repository later = some n ∨
      indexedSequence? host p.repository event = some n := by
  obtain ⟨e, valid, rfl, stored | saved⟩ := indexedSequence?_eq_some_iff.mp h
  · rcases ((indexEvent_spec host p event).1 _).mp stored with old | ⟨saves, e', valid', same⟩
    · exact .inl (indexedSequence?_eq_some_iff.mpr ⟨e, valid, rfl, .inl old⟩)
    · exact .inr (indexedSequence?_eq_some_iff.mpr
        ⟨e', valid', sequence_eq_of_buildEventKey_eq same, .inr saves⟩)
  · exact .inl (indexedSequence?_eq_some_iff.mpr ⟨e, valid, rfl, .inr saved⟩)

theorem indexedSequence?_mono {p : Progress} {later : Submission}
    (h : indexedSequence? host p.repository later = some n) :
    indexedSequence? host (indexEvent host p event).repository later = some n := by
  obtain ⟨e, valid, rfl, indexed⟩ := indexedSequence?_eq_some_iff.mp h
  exact indexedSequence?_eq_some_iff.mpr ⟨e, valid, rfl,
    indexed.imp_left fun old => ((indexEvent_spec host p event).1 _).mpr (.inl old)⟩

theorem maxSequence_indexEvents (host : Host) : ∀ (events : List Submission) (p : Progress),
    p.maxSequence ≤ (indexEvents host p events).maxSequence ∧
    (∀ event ∈ events, ∀ n, indexedSequence? host p.repository event = some n →
      (n : Int) ≤ (indexEvents host p events).maxSequence) ∧
    ((indexEvents host p events).maxSequence = p.maxSequence ∨ ∃ event ∈ events, ∃ n,
      indexedSequence? host p.repository event = some n ∧
        (indexEvents host p events).maxSequence = n)
  | [], p => by simp [indexEvents]
  | event :: events, p => by
      obtain ⟨above, bounds, attained⟩ := maxSequence_indexEvents host events (indexEvent host p event)
      have unfolded : indexEvents host p (event :: events) =
        indexEvents host (indexEvent host p event) events := rfl
      have one := (indexEvent_spec host p event).2
      rw [unfolded]
      refine ⟨?_, ?_, ?_⟩
      · refine le_trans ?_ above
        rw [one]
        cases indexedSequence? host p.repository event with
        | none => exact le_rfl
        | some n => exact le_max_left _ _
      · intro other mem n indexed
        rcases List.mem_cons.mp mem with rfl | mem
        · rw [one, indexed] at above
          exact (le_max_right _ _).trans above
        · exact bounds other mem n (indexedSequence?_mono indexed)
      · rcases attained with same | ⟨other, mem, n, indexed, eq⟩
        · cases indexed : indexedSequence? host p.repository event with
          | none =>
            rw [indexed] at one
            exact .inl (same.trans one)
          | some n =>
            rw [indexed] at one
            rcases le_total p.maxSequence n with le | le
            · exact .inr ⟨event, List.mem_cons_self, n, indexed,
                same.trans (one.trans (max_eq_right le))⟩
            · exact .inl (same.trans (one.trans (max_eq_left le)))
        · rcases indexedSequence?_of_indexEvent indexed with old | own
          · exact .inr ⟨other, List.mem_cons_of_mem _ mem, n, old, eq⟩
          · exact .inr ⟨event, List.mem_cons_self, n, own, eq⟩

/-! ### What a batch does -/

/-- The sequences a batch indexes over the repository it starts from. -/
def indexedSequences (host : Host) (s : State) (batch : Batch) : List Nat :=
  batch.events.filterMap (indexedSequence? host s.repository)

theorem mem_sortEventsBySequence {events : List Submission} :
    event ∈ sortEventsBySequence events ↔ event ∈ events :=
  (List.perm_insertionSort _ events).mem_iff

theorem has_indexBatch (host : Host) (s : State) (batch : Batch) (k : String) :
    hasEventKey (step host s batch).repository k = true ↔
      hasEventKey s.repository k = true ∨ ∃ event ∈ batch.events, Saves host k event := by
  have repository : (step host s batch).repository = (indexEvents host ⟨s.repository, 0, 0, [], -1⟩
      (sortEventsBySequence batch.events)).repository := by
    simp only [step, indexBatch]
    split <;> rfl
  rw [repository, has_indexEvents]
  simp [mem_sortEventsBySequence]

variable (host) in
/-- A batch puts its source's cursor at its highest indexed sequence, and
leaves every other cursor alone. -/
theorem lastSequence?_indexBatch (src : String) :
    lastSequence? (step host s batch) src =
      if src = batch.sourceId then (indexedSequences host s batch).max?.or (lastSequence? s src)
      else lastSequence? s src := by
  obtain ⟨-, bounds, attained⟩ := maxSequence_indexEvents host (sortEventsBySequence batch.events)
    ⟨s.repository, 0, 0, [], -1⟩
  simp only [mem_sortEventsBySequence] at bounds attained
  simp only [step, indexBatch]
  set m := (indexEvents host ⟨s.repository, 0, 0, [], -1⟩
    (sortEventsBySequence batch.events)).maxSequence
  rcases attained with none_indexed | ⟨event, mem, n, indexed, eq⟩
  · have empty : indexedSequences host s batch = [] := by
      refine List.filterMap_eq_nil_iff.mpr fun event mem => ?_
      cases indexed : indexedSequence? host s.repository event with
      | none => rfl
      | some n =>
        have := bounds event mem n indexed
        omega
    rw [if_neg (by omega), empty]
    simp [lastSequence?]
  · have highest : (indexedSequences host s batch).max? = some n := by
      refine List.max?_eq_some_iff.mpr ⟨List.mem_filterMap.mpr ⟨event, mem, indexed⟩, ?_⟩
      intro n' mem'
      obtain ⟨event', mem', indexed'⟩ := List.mem_filterMap.mp mem'
      have := bounds event' mem' n' indexed'
      omega
    have toNat : m.toNat = n := by omega
    rw [if_pos (by omega), highest, toNat]
    simp only [lastSequence?, updateCursor, OrderedMap.get?_set]
    by_cases own : src = batch.sourceId <;> simp [own]

/-! ### The cursor's height -/

/-- The sequence `resumeFromCursor` returns without an override. -/
def resumeSequence (src : String) : Int :=
  (resumeFromCursor s src none).resumeFromSequence

theorem resumeSequence_eq (src : String) :
    resumeSequence s src = match lastSequence? s src with
      | none => 0
      | some n => n + 1 := by
  unfold resumeSequence resumeFromCursor lastSequence?
  cases s.cursors.get? src <;> rfl

/-- Every cursor of `s` is still there in `t`, no lower, and no source resumes
from an earlier sequence. -/
def CursorsBelow (s t : State) : Prop :=
  ∀ src, (∀ n, lastSequence? s src = some n → ∃ m, lastSequence? t src = some m ∧ n ≤ m) ∧
    resumeSequence s src ≤ resumeSequence t src

theorem cursorsBelow_of_lastSequence {s t : State}
    (h : ∀ src n, lastSequence? s src = some n → ∃ m, lastSequence? t src = some m ∧ n ≤ m) :
    CursorsBelow s t := by
  refine fun src => ⟨h src, ?_⟩
  rw [resumeSequence_eq, resumeSequence_eq]
  cases before : lastSequence? s src with
  | none => cases lastSequence? t src <;> simp only <;> omega
  | some n =>
    obtain ⟨m, after, le⟩ := h src n before
    rw [after]
    simp only
    omega

theorem CursorsBelow.refl : CursorsBelow s s :=
  fun _ => ⟨fun n h => ⟨n, h, le_rfl⟩, le_rfl⟩

theorem CursorsBelow.trans {s t u : State} (st : CursorsBelow s t) (tu : CursorsBelow t u) :
    CursorsBelow s u := by
  refine fun src => ⟨fun n h => ?_, (st src).2.trans (tu src).2⟩
  obtain ⟨m, atT, le⟩ := (st src).1 n h
  obtain ⟨l, atU, le'⟩ := (tu src).1 m atT
  exact ⟨l, atU, le.trans le'⟩

/-- The batch indexes nothing, or something at least as high as its source's cursor. -/
def Advances (host : Host) (s : State) (batch : Batch) : Prop :=
  ∀ n, lastSequence? s batch.sourceId = some n →
    indexedSequences host s batch = [] ∨ ∃ m ∈ indexedSequences host s batch, n ≤ m

theorem advances_iff (host : Host) (s : State) (batch : Batch) :
    Advances host s batch ↔ CursorsBelow s (step host s batch) := by
  constructor
  · intro advances
    refine cursorsBelow_of_lastSequence fun src n before => ?_
    rw [lastSequence?_indexBatch]
    by_cases own : src = batch.sourceId
    · subst own
      rw [before]
      rcases advances n before with none_indexed | ⟨m, mem, le⟩
      · exact ⟨n, by simp [none_indexed], le_rfl⟩
      · obtain ⟨top, highest⟩ : ∃ top, (indexedSequences host s batch).max? = some top :=
          Option.ne_none_iff_exists'.mp fun h => by simp [List.max?_eq_none_iff.mp h] at mem
        exact ⟨top, by simp [highest], le.trans ((List.max?_eq_some_iff.mp highest).2 m mem)⟩
    · exact ⟨n, by rw [if_neg own]; exact before, le_rfl⟩
  · intro below n before
    obtain ⟨m, after, le⟩ := (below batch.sourceId).1 n before
    rw [lastSequence?_indexBatch, if_pos rfl] at after
    cases highest : (indexedSequences host s batch).max? with
    | none => exact .inl (List.max?_eq_none_iff.mp highest)
    | some top =>
      rw [highest, Option.some_or, Option.some.injEq] at after
      exact .inr ⟨m, after ▸ (List.max?_eq_some_iff.mp highest).1, le⟩

/-- Along a run of batches no cursor falls and no source resumes earlier than
before exactly when every batch indexes nothing, or something at least as high
as the cursor of its source. -/
theorem cursors_monotone_iff (host : Host) (s : State) (batches : List Batch) :
    Along (step host) (Advances host) s batches ↔
      ∀ earlier later, earlier <+: later → later <+: batches →
        CursorsBelow (run (step host) s earlier) (run (step host) s later) :=
  along_iff_monotone CursorsBelow.refl CursorsBelow.trans (advances_iff host) s batches

/-- Replaying an older batch takes the cursor back from 10 to 5. -/
theorem cursor_falls_on_replay :
    let newer : Batch := ⟨"s", [⟨createdPayload "c1" "e2" 10, "t0", none⟩], "t0"⟩
    let older : Batch := ⟨"s", [⟨createdPayload "c1" "e1" 5, "t1", none⟩], "t1"⟩
    lastSequence? (run (step lenientHost) State.initial [newer]) "s" = some 10 ∧
    lastSequence? (run (step lenientHost) State.initial [newer, older]) "s" = some 5 ∧
    ¬ CursorsBelow (run (step lenientHost) State.initial [newer])
      (run (step lenientHost) State.initial [newer, older]) := by
  intro newer older
  have high : lastSequence? (run (step lenientHost) State.initial [newer]) "s" = some 10 := by
    decide +kernel
  have low : lastSequence? (run (step lenientHost) State.initial [newer, older]) "s" = some 5 := by
    decide +kernel
  refine ⟨high, low, fun below => ?_⟩
  obtain ⟨m, after, le⟩ := (below "s").1 10 high
  cases low.symm.trans after
  omega

/-! ### What the cursor has passed -/

/-- The indexer together with every payload submitted so far, with its source. -/
structure Tracked where
  state : State
  submitted : List (String × Json)

def Tracked.initial : Tracked := ⟨State.initial, []⟩

def Tracked.step (host : Host) (t : Tracked) (batch : Batch) : Tracked where
  state := Indexer.step host t.state batch
  submitted := t.submitted ++ batch.events.map fun event => (batch.sourceId, event.payload)

/-- Tracking does not change what the indexer does. -/
theorem Tracked.state_run (host : Host) (batches : List Batch) : ∀ t : Tracked,
    (run (Tracked.step host) t batches).state = run (Indexer.step host) t.state batches := by
  induction batches with
  | nil => exact fun _ => rfl
  | cons batch batches ih => exact fun t => ih (Tracked.step host t batch)

/-- Every valid payload that the cursor of its source has reached is stored. -/
def NothingPassed (host : Host) (t : Tracked) : Prop :=
  ∀ src n, lastSequence? t.state src = some n → ∀ p, (src, p) ∈ t.submitted →
    ∀ e, validateContractEventPayload host p = .ok e → e.sequence ≤ n →
      hasEventKey t.state.repository (buildEventKey e) = true

/-- Every valid payload below the sequence its source resumes from is stored. -/
def NothingLeftBehind (host : Host) (t : Tracked) : Prop :=
  ∀ src p, (src, p) ∈ t.submitted → ∀ e, validateContractEventPayload host p = .ok e →
    (e.sequence : Int) < resumeSequence t.state src →
      hasEventKey t.state.repository (buildEventKey e) = true

variable {t : Tracked}

theorem nothingPassed_iff_nothingLeftBehind : NothingPassed host t ↔ NothingLeftBehind host t := by
  constructor
  · intro h src p mem e valid below
    rw [resumeSequence_eq] at below
    cases cursor : lastSequence? t.state src with
    | none => rw [cursor] at below; simp only at below; omega
    | some n =>
      rw [cursor] at below
      simp only at below
      exact h src n cursor p mem e valid (by omega)
  · intro h src n cursor p mem e valid le
    refine h src p mem e valid ?_
    rw [resumeSequence_eq, cursor]
    simp only
    omega

/-- A valid payload submitted for the batch's source, before or in the batch,
that is not stored and that the batch does not store. -/
def Outstanding (host : Host) (t : Tracked) (batch : Batch) (e : ContractEvent) : Prop :=
  (∃ p, ((batch.sourceId, p) ∈ t.submitted ∨ ∃ event ∈ batch.events, event.payload = p) ∧
    validateContractEventPayload host p = .ok e) ∧
  ¬ hasEventKey t.state.repository (buildEventKey e) = true ∧
  ∀ event ∈ batch.events, ¬ Saves host (buildEventKey e) event

/-- The batch indexes nothing as high as an outstanding payload; and if it
indexes nothing at all, the cursor is below every outstanding payload. -/
def NotOvertaken (host : Host) (t : Tracked) (batch : Batch) : Prop :=
  ∀ e, Outstanding host t batch e →
    (∀ n ∈ indexedSequences host t.state batch, n < e.sequence) ∧
    (indexedSequences host t.state batch = [] →
      ∀ n, lastSequence? t.state batch.sourceId = some n → n < e.sequence)

variable {batch : Batch}

theorem mem_submitted_step {src : String} {p : Json} :
    (src, p) ∈ (Tracked.step host t batch).submitted ↔
      (src, p) ∈ t.submitted ∨ (src = batch.sourceId ∧ ∃ event ∈ batch.events, event.payload = p) := by
  simp only [Tracked.step, List.mem_append, List.mem_map, Prod.mk.injEq]
  constructor
  · rintro (h | ⟨event, mem, rfl, rfl⟩)
    · exact .inl h
    · exact .inr ⟨rfl, event, mem, rfl⟩
  · rintro (h | ⟨rfl, event, mem, rfl⟩)
    · exact .inl h
    · exact .inr ⟨event, mem, rfl, rfl⟩

theorem outstanding_iff {e : ContractEvent} :
    Outstanding host t batch e ↔
      (∃ p, (batch.sourceId, p) ∈ (Tracked.step host t batch).submitted ∧
        validateContractEventPayload host p = .ok e) ∧
      ¬ hasEventKey (Tracked.step host t batch).state.repository (buildEventKey e) = true := by
  have stored : hasEventKey (Tracked.step host t batch).state.repository (buildEventKey e) = true ↔
      hasEventKey t.state.repository (buildEventKey e) = true ∨
        ∃ event ∈ batch.events, Saves host (buildEventKey e) event :=
    has_indexBatch host t.state batch _
  simp [Outstanding, mem_submitted_step, stored]

theorem notOvertaken_iff (inv : NothingPassed host t) :
    NotOvertaken host t batch ↔ NothingPassed host (Tracked.step host t batch) := by
  constructor
  · intro cond src n cursor p mem e valid le
    by_contra missing
    by_cases own : src = batch.sourceId
    · subst own
      obtain ⟨above, still⟩ := cond e (outstanding_iff.mpr ⟨⟨p, mem, valid⟩, missing⟩)
      simp only [Tracked.step, lastSequence?_indexBatch, if_pos] at cursor
      cases highest : (indexedSequences host t.state batch).max? with
      | none =>
        rw [highest] at cursor
        have := still (List.max?_eq_none_iff.mp highest) n cursor
        omega
      | some top =>
        rw [highest, Option.some_or, Option.some.injEq] at cursor
        have := above n (cursor ▸ (List.max?_eq_some_iff.mp highest).1)
        omega
    · -- Another source keeps its cursor, and nothing leaves the repository.
      simp only [Tracked.step, lastSequence?_indexBatch, if_neg own] at cursor
      have old := (mem_submitted_step.mp mem).resolve_right fun h => own h.1
      exact missing ((has_indexBatch host t.state batch _).mpr
        (.inl (inv src n cursor p old e valid le)))
  · intro next e outstanding
    obtain ⟨⟨p, mem, valid⟩, missing⟩ := outstanding_iff.mp outstanding
    have beyond : ∀ n, lastSequence? (Tracked.step host t batch).state batch.sourceId = some n →
        n < e.sequence := fun n cursor =>
      not_le.mp fun le => missing (next batch.sourceId n cursor p mem e valid le)
    simp only [Tracked.step, lastSequence?_indexBatch, if_pos] at beyond
    constructor
    · intro n indexed
      cases highest : (indexedSequences host t.state batch).max? with
      | none => simp [List.max?_eq_none_iff.mp highest] at indexed
      | some top =>
        have := beyond top (by rw [highest, Option.some_or])
        exact ((List.max?_eq_some_iff.mp highest).2 n indexed).trans_lt this
    · intro none_indexed n cursor
      exact beyond n (by simp [none_indexed, cursor])

/-- From a fresh start, whatever saves fail: in every state of a run each valid
payload that its source's cursor has reached is stored, so none lies below the
sequence to resume from, exactly when no batch overtakes an outstanding payload. -/
theorem nothing_skipped_iff (host : Host) (batches : List Batch) :
    Along (Tracked.step host) (NotOvertaken host) Tracked.initial batches ↔
      ∀ done, done <+: batches →
        NothingPassed host (run (Tracked.step host) Tracked.initial done) ∧
        NothingLeftBehind host (run (Tracked.step host) Tracked.initial done) := by
  have start : NothingPassed host Tracked.initial := by
    intro src n cursor
    simp [Tracked.initial, State.initial, lastSequence?] at cursor
  simp only [← nothingPassed_iff_nothingLeftBehind, and_self]
  exact along_iff_always (fun t batch inv => (notOvertaken_iff inv).mp) (fun t inv => inv)
    (fun t batch inv => (notOvertaken_iff inv).mpr) start

/-- A payload whose save fails is passed by the cursor when a later one is saved. -/
theorem failed_save_is_skipped :
    let batch : Batch := ⟨"s", [⟨createdPayload "c1" "e1" 1, "t0", some (.error "disk full")⟩,
      ⟨createdPayload "c1" "e2" 2, "t0", none⟩], "t0"⟩
    let t := run (Tracked.step lenientHost) Tracked.initial [batch]
    lastSequence? t.state "s" = some 2 ∧
    hasEventKey t.state.repository "c1:e1:1" = false ∧
    ¬ NothingPassed lenientHost t := by
  intro batch t
  have cursor : lastSequence? t.state "s" = some 2 := by decide +kernel
  have missing : hasEventKey t.state.repository "c1:e1:1" = false := by decide +kernel
  refine ⟨cursor, missing, fun h => ?_⟩
  have mem : ("s", createdPayload "c1" "e1" 1) ∈ t.submitted := by decide +kernel
  have valid : validateContractEventPayload lenientHost (createdPayload "c1" "e1" 1) =
      .ok ⟨"c1", "e1", 1, "2024-01-01T00:00:00.000Z", .contractCreated, .obj []⟩ := by
    decide +kernel
  have stored := h "s" 2 cursor _ mem _ valid (by decide)
  cases stored

end Indexer

end TalentTrust.Events
