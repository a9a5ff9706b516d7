import TalentTrust.Events.Envelope
import TalentTrust.Lib.CheckThenWrite
import TalentTrust.Lib.OrderedMap

/-!
`EventIngestionService.processBatch` over the in-memory audit repository.

The service cuts a list of events into chunks and runs the calls of one chunk
concurrently: all of them start, in order, and each reads the audit of its
deduplication key before any of them goes on. A call that found no audit saves
its own. Seen from one key this is check-then-write, chunk after chunk.

`processBatch_idempotent_iff` says exactly when the outcome is idempotent under
every interleaving: no chunk may hold two valid events of one key that is still
free when the chunk starts.
-/

namespace TalentTrust.Events.Ingestion

open TalentTrust.Lib

/-! ### The service -/

structure EventIngestionConfig where
  enableStrictValidation : Bool
  enablePayloadIntegrityCheck : Bool
  maxEventAgeMs : Decimal
  batchSize : Int

/-- The service with what it is given for one batch. `localeLe` is the order of
`localeCompare`. -/
structure Service where
  host : Host
  localeLe : String → String → Bool
  sha256 : String → List UInt8
  config : EventIngestionConfig
  contractType : String
  correlationId : Option String

/-- An event with the clock (in milliseconds) at the start of its call. -/
structure Submission where
  event : Json
  now : Nat
  deriving DecidableEq

inductive Status where
  | accepted
  | duplicate
  | rejected
  deriving DecidableEq, Repr

structure EventIngestionResult where
  deduplicationKey : Option String
  status : Status
  reason : Option String
  processedAt : Nat
  statusCode : Option Nat
  code : Option String
  deriving DecidableEq

structure EventProcessingAudit where
  id : String
  deduplicationKey : String
  contractId : String
  eventId : String
  sequence : Option Json
  status : Status
  payloadHash : String
  processedAt : Nat
  createdAt : Nat
  correlationId : Option String
  deriving DecidableEq

/-- `InMemoryEventAuditRepository.audits`. -/
abbrev AuditRepository := OrderedMap String EventProcessingAudit

/-! ### Validation -/

def ingestionPreambleOptions : EnvelopeValidationOptions where
  rootErrorMessage := "Event must be a JSON object."
  messageSuffix := "."
  timestampRule := .numeric
  abortEarly := false

def toTimestampNumber (host : Host) (value : Option Json) : Option Decimal :=
  toFiniteNumber host value

/-- The checks on the payload of a `talent_contract` event. -/
def validateContractSpecificPayload (contractType : String) (payload : Option Json) :
    List FieldError :=
  match payload with
  | some (.obj fields) =>
    if contractType = "talent_contract" then
      [requiredText (.obj fields) "talentId" "payload.talentId"
          "talentId is required for talent_contract events.",
        requiredText (.obj fields) "action" "payload.action"
          "action is required for talent_contract events."].reduceOption
    else []
  | _ => []

def ageErrors (svc : Service) (preambleErrors : List FieldError) (s : Submission) :
    List FieldError :=
  match toTimestampNumber svc.host (s.event.get? "timestamp") with
  | some timestamp =>
    if (preambleErrors.all fun e => e.field ≠ "timestamp") &&
        svc.config.maxEventAgeMs.less (svc.host.minus (.ofNat s.now) timestamp) then
      [⟨"timestamp", "Event too old."⟩]
    else []
  | none => []

def validateEvent (svc : Service) (s : Submission) : List FieldError :=
  let preambleErrors := validateEventEnvelopePreamble svc.host s.event ingestionPreambleOptions
  preambleErrors ++
    if s.event.isRecord then
      ageErrors svc preambleErrors s ++
        if svc.config.enableStrictValidation then
          validateContractSpecificPayload svc.contractType (s.event.get? "payload")
        else []
    else []

/-! ### Keys and hashes -/

/-- `sequence.toString()` of a checked event. -/
def sequenceText : Option Json → String
  | some (.num d) => String.ofList d.chars
  | _ => ""

def computeDeduplicationKey (event : Json) : String :=
  asString (event.get? "contractId") ++ ":" ++ asString (event.get? "eventId") ++ ":" ++
    sequenceText (event.get? "sequence")

def canonicalize (svc : Service) (value : Json) : String := value.stringifySorted svc.localeLe

def computePayloadHash (svc : Service) (s : Submission) : String :=
  sha256Hex svc.sha256 (canonicalize svc ((s.event.get? "payload").getD .null))

/-- Equality of the bytes two hashes stand for. -/
def comparePayloadHashes (actualHash expectedHash : String) : Bool :=
  fromHex actualHash = fromHex expectedHash

/-- The key of a submission whose event is valid. -/
def Submission.key? (svc : Service) (s : Submission) : Option String :=
  if validateEvent svc s = [] then some (computeDeduplicationKey s.event) else none

variable {svc : Service} {k : String} {s : Submission}

theorem key?_eq_some_iff :
    s.key? svc = some k ↔ validateEvent svc s = [] ∧ computeDeduplicationKey s.event = k := by
  unfold Submission.key?
  by_cases valid : validateEvent svc s = [] <;> simp [valid]

theorem comparePayloadHashes_iff {t : Submission} :
    comparePayloadHashes (computePayloadHash svc s) (computePayloadHash svc t) = true ↔
      computePayloadHash svc s = computePayloadHash svc t := by
  simp only [comparePayloadHashes, decide_eq_true_eq]
  constructor
  · intro same
    simp only [computePayloadHash, sha256Hex, fromHex_toHex] at same ⊢
    rw [same]
  · exact fun same => by rw [same]

/-! ### One call of `processEvent` -/

inductive Phase where
  /-- Validation failed; the call has returned. -/
  | refused
  /-- It awaits `findByDeduplicationKey`, which has read `existing`. -/
  | finding (existing : Option EventProcessingAudit)
  /-- It found an audit and has returned. -/
  | found (existing : EventProcessingAudit)
  /-- It awaits `save`, which has stored `audit`. -/
  | saving (audit : EventProcessingAudit)
  /-- It has saved `audit` and returned. -/
  | accepted (audit : EventProcessingAudit)
  deriving DecidableEq

structure Call where
  submission : Submission
  phase : Phase
  deriving DecidableEq

variable (svc s) in
/-- The audit that a call saves; `now` and `random` are the clock and the
random text at that point. -/
def newAudit (now : Nat) (random : String) : EventProcessingAudit where
  id := "audit_" ++ toString now ++ "_" ++ random
  deduplicationKey := computeDeduplicationKey s.event
  contractId := asString (s.event.get? "contractId")
  eventId := asString (s.event.get? "eventId")
  sequence := s.event.get? "sequence"
  status := .accepted
  payloadHash := computePayloadHash svc s
  processedAt := s.now
  createdAt := now
  correlationId := svc.correlationId.filter (· ≠ "")

/-- `processEvent` up to its first `await`. -/
def begin (svc : Service) (audits : AuditRepository) (s : Submission) : Call where
  submission := s
  phase :=
    if validateEvent svc s = [] then .finding (audits.get? (computeDeduplicationKey s.event))
    else .refused

/-- `processEvent` from one `await` to the next. -/
def proceed (svc : Service) (now : Nat) (random : String) (audits : AuditRepository) (call : Call) :
    AuditRepository × Call :=
  match call.phase with
  | .finding (some existing) => (audits, { call with phase := .found existing })
  | .finding none =>
    let audit := newAudit svc call.submission now random
    (audits.set audit.deduplicationKey audit, { call with phase := .saving audit })
  | .saving audit => (audits, { call with phase := .accepted audit })
  | _ => (audits, call)

def conflictReason : String := "Idempotency key was already used with a different event payload."

variable (svc s) in
/-- The result for an event whose key has an audit. -/
def foundResult (existing : EventProcessingAudit) : EventIngestionResult :=
  let key := computeDeduplicationKey s.event
  if comparePayloadHashes (computePayloadHash svc s) existing.payloadHash then
    { deduplicationKey := some key
      status := .duplicate
      reason := some "Event with same deduplication key already processed"
      processedAt := s.now
      statusCode := none
      code := none }
  else if svc.config.enablePayloadIntegrityCheck &&
      decide ("already used".toList <:+: conflictReason.toList) then
    { deduplicationKey := some key
      status := .rejected
      reason := some
        "Payload integrity check failed: event payload does not match previously processed event."
      processedAt := s.now
      statusCode := none
      code := some "IDEMPOTENCY_PAYLOAD_CONFLICT" }
  else
    { deduplicationKey := some key
      status := .rejected
      reason := some conflictReason
      processedAt := s.now
      statusCode := some 409
      code := some "IDEMPOTENCY_PAYLOAD_CONFLICT" }

/-- What a call has returned. -/
def Call.result? (svc : Service) (call : Call) : Option EventIngestionResult :=
  match call.phase with
  | .refused => some
      { deduplicationKey := none
        status := .rejected
        reason := some ("Validation failed: " ++
          "; ".intercalate ((validateEvent svc call.submission).map FieldError.message))
        processedAt := call.submission.now
        statusCode := none
        code := none }
  | .found existing => some (foundResult svc call.submission existing)
  | .accepted _ => some
      { deduplicationKey := some (computeDeduplicationKey call.submission.event)
        status := .accepted
        reason := none
        processedAt := call.submission.now
        statusCode := none
        code := none }
  | .finding _ | .saving _ => none

def Call.key? (svc : Service) (call : Call) : Option String := call.submission.key? svc

/-! ### The batch -/

/-- `events.slice(index, index + size)` for `index = 0, size, 2 * size, …`; the
first argument bounds the number of slices. -/
def slices {α : Type} (size : Nat) : Nat → List α → List (List α)
  | 0, _ => []
  | _ + 1, [] => []
  | fuel + 1, events => events.take size :: slices size fuel (events.drop size)

/-- The chunks of `processBatch`. -/
def chunks (svc : Service) (events : List Submission) : List (List Submission) :=
  slices (max 1 svc.config.batchSize).toNat events.length events

theorem flatten_slices {α : Type} {size : Nat} (pos : 0 < size) : ∀ (fuel : Nat) (events : List α),
    events.length ≤ fuel → (slices size fuel events).flatten = events
  | 0, [], _ => rfl
  | 0, _ :: _, le => absurd le (by simp)
  | _ + 1, [], _ => rfl
  | fuel + 1, e :: es, le => by
      have shorter : ((e :: es).drop size).length ≤ fuel := by
        rw [List.length_drop]
        omega
      rw [slices, List.flatten_cons, flatten_slices pos fuel _ shorter, List.take_append_drop]
      exact List.cons_ne_nil e es

theorem flatten_chunks (svc : Service) (events : List Submission) :
    (chunks svc events).flatten = events :=
  flatten_slices (by omega) _ _ le_rfl

structure State where
  audits : AuditRepository
  /-- The calls of earlier chunks. -/
  finished : List Call
  /-- The calls that the current `Promise.all` awaits. -/
  current : List Call
  remaining : List (List Submission)
  deriving DecidableEq

inductive Event where
  /-- A call of the current chunk goes on. -/
  | resume (index : Nat) (now : Nat) (random : String)
  /-- `Promise.all` has resolved, and the loop takes the next chunk. -/
  | next
  deriving DecidableEq

/-- `processBatch(events, …)` before its first chunk. -/
def start (svc : Service) (audits : AuditRepository) (events : List Submission) : State :=
  ⟨audits, [], [], chunks svc events⟩

def step (svc : Service) (s : State) : Event → State
  | .resume i now random =>
    let next := resumeAt (proceed svc now random) i (s.audits, s.current)
    { s with audits := next.1, current := next.2 }
  | .next =>
    if s.current.all fun call => (call.result? svc).isSome then
      match s.remaining with
      | [] => { s with finished := s.finished ++ s.current, current := [] }
      | chunk :: rest =>
        { s with
          finished := s.finished ++ s.current
          current := chunk.map (begin svc s.audits)
          remaining := rest }
    else s

def State.calls (s : State) : List Call := s.finished ++ s.current

abbrev Settled (svc : Service) (calls : List Call) : Prop :=
  ∀ call ∈ calls, (call.result? svc).isSome = true

def callsOf (svc : Service) (s : State) (k : String) : List Call :=
  s.calls.filter fun call => call.key? svc = some k

/-! ### What is to hold -/

def Call.accepted (svc : Service) (call : Call) : Bool :=
  (call.result? svc).map EventIngestionResult.status = some .accepted

/-- At most one event of a key is accepted; every event of the key whose
payload hash differs from the accepted one, or from that of an audit stored
before the batch, is rejected if it is reported at all. -/
structure Idempotent (svc : Service) (audits : AuditRepository) (s : State) : Prop where
  once : ∀ k, (callsOf svc s k).countP (Call.accepted svc) ≤ 1
  conflicting : ∀ k, ∀ a ∈ callsOf svc s k, a.accepted svc = true → ∀ c ∈ callsOf svc s k,
    computePayloadHash svc c.submission ≠ computePayloadHash svc a.submission →
      ∀ r, c.result? svc = some r → r.status = .rejected
  stored : ∀ k audit, audits.get? k = some audit → ∀ c ∈ callsOf svc s k,
    comparePayloadHashes (computePayloadHash svc c.submission) audit.payloadHash = false →
      ∀ r, c.result? svc = some r → r.status = .rejected

/-- No chunk has two valid events of one key that no audit stored before the
batch and no valid event of an earlier chunk has. -/
def NoClash (svc : Service) (audits : AuditRepository) (events : List Submission) : Prop :=
  ∀ before chunk after, chunks svc events = before ++ chunk :: after →
    ∀ k, audits.get? k = none → (∀ s ∈ before.flatten, s.key? svc ≠ some k) →
      (chunk.countP fun s => s.key? svc = some k) ≤ 1

/-! ### Calls keep to their event -/

def Coherent (svc : Service) (call : Call) : Prop :=
  match call.phase with
  | .refused => validateEvent svc call.submission ≠ []
  | .finding _ | .found _ => validateEvent svc call.submission = []
  | .saving audit | .accepted audit => validateEvent svc call.submission = [] ∧
      ∃ now random, audit = newAudit svc call.submission now random

theorem coherent_begin (svc : Service) (audits : AuditRepository) (s : Submission) :
    Coherent svc (begin svc audits s) := by
  by_cases valid : validateEvent svc s = [] <;> simp [Coherent, begin, valid]

theorem coherent_proceed (now : Nat) (random : String) (audits : AuditRepository) (call : Call)
    (ok : Coherent svc call) : Coherent svc (proceed svc now random audits call).2 := by
  obtain ⟨s, phase⟩ := call
  cases phase with
  | refused => exact ok
  | finding existing =>
    cases existing with
    | none => exact ⟨ok, now, random, rfl⟩
    | some audit => exact ok
  | found existing | saving audit => exact ok
  | accepted audit => exact ok

/-! ### One key of the batch is check-then-write -/

def Call.attempt (call : Call) : Attempt EventProcessingAudit EventProcessingAudit :=
  match call.phase with
  | .refused | .finding none => .free
  | .finding (some existing) | .found existing => .taken existing
  | .saving audit | .accepted audit => .wrote audit

def attempts (svc : Service) (s : State) (k : String) :
    List (Attempt EventProcessingAudit EventProcessingAudit) :=
  attemptsOn (Call.key? svc) Call.attempt s.calls k

theorem attempts_eq_map (svc : Service) (s : State) (k : String) :
    attempts svc s k = (callsOf svc s k).map Call.attempt := rfl

variable {audits : AuditRepository} {call : Call}

theorem proceed_spec (now : Nat) (random : String) (coherent : Coherent svc call) (k : String) :
    TurnSpec (Call.key? svc) Call.attempt (OrderedMap.get? · k) k (proceed svc now random)
      audits call := by
  obtain ⟨s, phase⟩ := call
  cases phase with
  | finding existing =>
    cases existing with
    | some audit => exact ⟨rfl, fun _ => rfl, fun _ => .inl ⟨rfl, rfl⟩⟩
    | none =>
      have key : s.key? svc = some (computeDeduplicationKey s.event) :=
        key?_eq_some_iff.mpr ⟨coherent, rfl⟩
      refine ⟨rfl, fun other => ?_, fun own => .inr ⟨rfl, _, rfl, ?_⟩⟩
      · exact OrderedMap.get?_set_of_ne _ _ fun eq => other (eq ▸ key)
      · cases Option.some.inj (key.symm.trans own)
        exact OrderedMap.get?_set_self _ _ _
  | refused | found existing => exact ⟨rfl, fun _ => rfl, fun _ => .inl ⟨rfl, rfl⟩⟩
  | saving audit | accepted audit => exact ⟨rfl, fun _ => rfl, fun _ => .inl ⟨rfl, rfl⟩⟩

theorem attempt_begin (key : s.key? svc = some k) :
    (begin svc audits s).attempt = readAttempt id (audits.get? k) := by
  obtain ⟨valid, rfl⟩ := key?_eq_some_iff.mp key
  cases stored : audits.get? (computeDeduplicationKey s.event) <;>
    simp [begin, Call.attempt, valid, stored, readAttempt]

/-- A call of a key that has returned has found an audit, or has saved its own. -/
theorem returned_cases (coherent : Coherent svc call) (key : call.key? svc = some k)
    (returned : (call.result? svc).isSome = true) :
    (∃ existing, call.attempt = .taken existing ∧
      call.result? svc = some (foundResult svc call.submission existing)) ∨
    (∃ audit, call.attempt = .wrote audit ∧ call.accepted svc = true) := by
  obtain ⟨s, phase⟩ := call
  cases phase with
  | refused => exact absurd (key?_eq_some_iff.mp key).1 coherent
  | finding existing | saving audit => simp [Call.result?] at returned
  | found existing => exact .inl ⟨existing, rfl, rfl⟩
  | accepted audit => exact .inr ⟨audit, rfl, by simp [Call.accepted, Call.result?]⟩

theorem foundResult_status {existing : EventProcessingAudit} :
    (foundResult svc s existing).status =
      if comparePayloadHashes (computePayloadHash svc s) existing.payloadHash then .duplicate
      else .rejected := by
  unfold foundResult
  split
  · rfl
  · split <;> rfl

theorem attempt_of_accepted (coherent : Coherent svc call) (accepted : call.accepted svc = true) :
    ∃ audit, call.attempt = .wrote audit ∧ audit.payloadHash = computePayloadHash svc call.submission := by
  obtain ⟨s, phase⟩ := call
  cases phase with
  | refused | finding existing | saving audit => simp [Call.accepted, Call.result?] at accepted
  | found existing =>
    simp only [Call.accepted, Call.result?, Option.map_some, foundResult_status] at accepted
    split at accepted <;> simp at accepted
  | accepted audit =>
    obtain ⟨-, now, random, own⟩ := coherent
    exact ⟨audit, rfl, congrArg EventProcessingAudit.payloadHash own⟩

/-! ### What every run keeps -/

variable (svc audits) in
/-- What holds in every state of a batch, whatever the events: calls keep to
their events; earlier chunks are complete; the calls made are those of the chunks
taken so far; and a key that nobody has tried holds what it held before. -/
structure Reached (events : List Submission) (s : State) : Prop where
  coherent : ∀ call ∈ s.calls, Coherent svc call
  complete : ∀ call ∈ s.finished, (call.result? svc).isSome = true
  taken : ∃ done, chunks svc events = done ++ s.remaining ∧
    s.calls.map Call.submission = done.flatten
  untried : ∀ k, attempts svc s k = [] → s.audits.get? k = audits.get? k

theorem submission_resumeAt (svc : Service) (now : Nat) (random : String) (i : Nat)
    (r : AuditRepository × List Call) :
    (resumeAt (proceed svc now random) i r).2.map Call.submission = r.2.map Call.submission := by
  cases found : r.2[i]? with
  | none => rw [resumeAt_of_none found]
  | some call =>
    have same : (proceed svc now random r.1 call).2.submission = call.submission := by
      obtain ⟨s, phase⟩ := call
      cases phase with
      | finding existing => cases existing <;> rfl
      | _ => rfl
    obtain ⟨earlier, later, split, written⟩ := exists_split_of_getElem? found
    rw [resumeAt_of_some found, written, split]
    simp [same]

variable (svc audits) in
theorem reached_start (events : List Submission) :
    Reached svc audits events (start svc audits events) where
  coherent := by simp [start, State.calls]
  complete := by simp [start]
  taken := ⟨[], rfl, rfl⟩
  untried := fun _ _ => rfl

variable {s : State}

theorem step_next {chunk : List Submission} {rest : List (List Submission)}
    (complete : Settled svc s.current) (more : s.remaining = chunk :: rest) :
    step svc s .next =
      ⟨s.audits, s.finished ++ s.current, chunk.map (begin svc s.audits), rest⟩ := by
  simp only [step, more]
  rw [if_pos (by simpa using complete)]

theorem step_next_cases (svc : Service) (s : State) :
    let t := step svc s .next
    (t.audits = s.audits ∧ t.calls = s.calls ∧ t.remaining = s.remaining ∧
      ∀ call ∈ t.finished, call ∈ s.finished ∨ (call.result? svc).isSome = true) ∨
    Settled svc s.current ∧ ∃ chunk rest, s.remaining = chunk :: rest := by
  simp only [step]
  split
  · rename_i all
    have complete : Settled svc s.current := by
      simpa using all
    cases more : s.remaining with
    | nil =>
      exact .inl ⟨rfl, List.append_nil _, rfl, List.forall_mem_append.mpr
        ⟨fun _ => .inl, fun call mem => .inr (complete call mem)⟩⟩
    | cons chunk rest => exact .inr ⟨complete, chunk, rest, rfl⟩
  · exact .inl ⟨rfl, rfl, rfl, fun _ => .inl⟩

variable {events : List Submission} (h : Reached svc audits events s)

include h

theorem Reached.next : Reached svc audits events (step svc s .next) := by
  obtain ⟨done, split, calls⟩ := h.taken
  rcases step_next_cases svc s with ⟨same, sameCalls, left, finished⟩ | ⟨complete, chunk, rest, more⟩
  · refine ⟨sameCalls ▸ h.coherent, fun call mem => (finished call mem).elim (h.complete call) id,
      ⟨done, left ▸ split, sameCalls ▸ calls⟩, fun k none_tried => ?_⟩
    rw [attempts, sameCalls] at none_tried
    exact same ▸ h.untried k none_tried
  · rw [step_next complete more]
    refine ⟨?_, List.forall_mem_append.mpr ⟨h.complete, complete⟩, ⟨done ++ [chunk], ?_, ?_⟩,
      fun k none_tried => h.untried k ?_⟩
    · rw [State.calls, List.forall_mem_append, List.forall_mem_map]
      exact ⟨h.coherent, fun sub _ => coherent_begin svc s.audits sub⟩
    · rw [split, more, List.append_assoc, List.singleton_append]
    · have submissions : (chunk.map (begin svc s.audits)).map Call.submission = chunk := by
        rw [List.map_map]
        exact List.map_id chunk
      rw [List.flatten_append, ← calls, State.calls, List.map_append, submissions,
        List.flatten_singleton]
      rfl
    · rw [attempts, State.calls, attemptsOn_append] at none_tried
      exact (List.append_eq_nil_iff.mp none_tried).1

variable (i now : Nat) (random : String)

theorem keyStep_resume (k : String) :
    KeyStep id (s.audits.get? k) (attempts svc s k)
      ((step svc s (.resume i now random)).audits.get? k)
      (attempts svc (step svc s (.resume i now random)) k) :=
  keyStep_resumeAt (s := (s.audits, s.current)) s.finished i fun call found =>
    proceed_spec now random (h.coherent call (List.mem_append_right _ (List.mem_of_getElem? found))) k

theorem Reached.resume : Reached svc audits events (step svc s (.resume i now random)) where
  coherent := by
    intro call mem
    rcases List.mem_append.mp mem with mem | mem
    · exact h.coherent call (List.mem_append_left _ mem)
    · exact forall_mem_resumeAt (s := (s.audits, s.current)) (coherent_proceed now random) i
        (fun call mem => h.coherent call (List.mem_append_right _ mem)) call mem
  complete := h.complete
  taken := by
    obtain ⟨done, split, calls⟩ := h.taken
    refine ⟨done, split, ?_⟩
    rw [State.calls, List.map_append] at calls ⊢
    exact (congrArg _ (submission_resumeAt svc now random i (s.audits, s.current))).trans calls
  untried := by
    intro k none_tried
    obtain ⟨before, same⟩ := (keyStep_resume h i now random k).eq_of_nil none_tried
    exact same.trans (h.untried k before)

omit h in
theorem Reached.step (s : State) (e : Event) (h : Reached svc audits events s) :
    Reached svc audits events (step svc s e) := by
  cases e with
  | resume i now random => exact h.resume i now random
  | next => exact h.next

/-! ### Without a clash every key is exclusive -/

variable (svc audits s) in
def AllExclusive : Prop :=
  ∀ k, Exclusive id (audits.get? k) (s.audits.get? k) (attempts svc s k)

/-- When all calls are complete, a key that holds nothing has not been tried. -/
theorem attempts_eq_nil_of_free (complete : Settled svc s.calls)
    (exclusive : Exclusive id (audits.get? k) (s.audits.get? k) (attempts svc s k))
    (free : s.audits.get? k = none) : attempts svc s k = [] ∧ audits.get? k = none := by
  rw [free] at exclusive
  cases initial : audits.get? k with
  | some audit => rw [initial] at exclusive; cases exclusive.1
  | none =>
    rw [initial] at exclusive
    rcases exclusive with none_tried | pending
    · exact ⟨none_tried, rfl⟩
    · rw [attempts_eq_map] at pending
      obtain ⟨call, only, waiting⟩ := List.map_eq_singleton_iff.mp pending
      have mem : call ∈ callsOf svc s k := only ▸ List.mem_singleton.mpr rfl
      obtain ⟨mem, key⟩ := List.mem_filter.mp mem
      rcases returned_cases (h.coherent call mem) (of_decide_eq_true key) (complete call mem) with
        ⟨existing, taken, -⟩ | ⟨audit, wrote, -⟩
      · cases taken.symm.trans waiting
      · cases wrote.symm.trans waiting

omit h in
theorem AllExclusive.step (apart : NoClash svc audits events) (h : Reached svc audits events s)
    (exclusive : AllExclusive svc audits s) (e : Event) :
    AllExclusive svc audits (step svc s e) := by
  intro k
  cases e with
  | resume i now random =>
    refine (exclusive k).step (keyStep_resume h i now random k) ?_
    exact orderly_resumeAt (s := (s.audits, s.current)) s.finished i (fun call found =>
      proceed_spec now random (h.coherent call (List.mem_append_right _ (List.mem_of_getElem? found)))
        k) _
  | next =>
    rcases step_next_cases svc s with ⟨same, sameCalls, -, -⟩ | ⟨complete, chunk, rest, more⟩
    · rw [attempts, same, sameCalls]
      exact exclusive k
    · rw [step_next complete more]
      refine Exclusive.append_calls (exclusive k) ?_ fun free => ?_
      · intro call mem key
        obtain ⟨sub, -, rfl⟩ := List.mem_map.mp mem
        exact attempt_begin key
      · have allComplete := List.forall_mem_append.mpr ⟨h.complete, complete⟩
        obtain ⟨none_tried, initial⟩ := attempts_eq_nil_of_free h allComplete (exclusive k) free
        refine ⟨none_tried, ?_⟩
        obtain ⟨done, split, calls⟩ := h.taken
        rw [List.countP_map]
        refine apart done chunk rest (by rw [split, more]) k initial ?_
        -- No event of the chunks taken so far has the key.
        intro sub mem key
        rw [← calls] at mem
        obtain ⟨call, made, rfl⟩ := List.mem_map.mp mem
        have : call ∈ callsOf svc s k := List.mem_filter.mpr ⟨made, decide_eq_true key⟩
        rw [attempts_eq_map, List.map_eq_nil_iff] at none_tried
        rw [none_tried] at this
        cases this

theorem idempotent_of_exclusive (exclusive : AllExclusive svc audits s) : Idempotent svc audits s := by
  have keyed : ∀ {k}, ∀ call ∈ callsOf svc s k, Coherent svc call ∧ call.key? svc = some k ∧
      call.attempt ∈ attempts svc s k := by
    intro k call mem
    obtain ⟨inCalls, key⟩ := List.mem_filter.mp mem
    exact ⟨h.coherent call inCalls, of_decide_eq_true key, List.mem_map_of_mem mem⟩
  constructor
  · intro k
    refine le_trans ?_ (exclusive k).contenders_le_one
    rw [attempts_eq_map, List.countP_map]
    refine List.countP_mono_left fun call mem accepted => ?_
    obtain ⟨audit, wrote, -⟩ := attempt_of_accepted (keyed call mem).1 accepted
    simp [wrote, Attempt.contends]
  · intro k a memA accepted c memC differ r returned
    obtain ⟨audit, wrote, hash⟩ := attempt_of_accepted (keyed a memA).1 accepted
    obtain ⟨coherent, key, mem⟩ := keyed c memC
    rcases returned_cases coherent key (Option.isSome_iff_exists.mpr ⟨r, returned⟩) with
      ⟨existing, taken, result⟩ | ⟨own, wroteC, acceptedC⟩
    · cases Option.some.inj (result.symm.trans returned)
      rcases (exclusive k).of_wrote (wrote ▸ (keyed a memA).2.2) _ mem with eq | eq
      · cases taken.symm.trans eq
      · cases taken.symm.trans eq
        rw [foundResult_status, if_neg]
        rw [id, hash, comparePayloadHashes_iff]
        exact differ
    · -- The one call that wrote has the hash of the accepted event.
      obtain ⟨audit', wrote', hash'⟩ := attempt_of_accepted coherent acceptedC
      rcases (exclusive k).of_wrote (wrote ▸ (keyed a memA).2.2) _ mem with eq | eq
      · cases wrote'.symm.trans eq
        exact absurd (hash'.symm.trans hash) differ
      · cases wrote'.symm.trans eq
  · intro k audit initial c memC differ r returned
    have all := exclusive k
    rw [initial] at all
    obtain ⟨coherent, key, mem⟩ := keyed c memC
    rcases returned_cases coherent key (Option.isSome_iff_exists.mpr ⟨r, returned⟩) with
      ⟨existing, taken, result⟩ | ⟨own, wrote, -⟩
    · cases Option.some.inj (result.symm.trans returned)
      cases taken.symm.trans (all.2 _ mem)
      rw [foundResult_status, if_neg (by rw [id, differ]; exact Bool.false_ne_true)]
    · cases wrote.symm.trans (all.2 _ mem)

/-! ### A clash shows -/

theorem contenders_le_step (e : Event) (k : String) :
    (attempts svc s k).countP Attempt.contends ≤
      (attempts svc (step svc s e) k).countP Attempt.contends := by
  cases e with
  | resume i now random => exact contenders_le_of_step (keyStep_resume h i now random k)
  | next =>
    rcases step_next_cases svc s with ⟨-, sameCalls, -, -⟩ | ⟨complete, chunk, rest, more⟩
    · rw [attempts, attempts, sameCalls]
    · rw [step_next complete more]
      show _ ≤ (attemptsOn _ _ ((s.finished ++ s.current) ++ _) k).countP _
      rw [attemptsOn_append _ (chunk.map _), List.countP_append]
      exact Nat.le_add_right _ _

theorem accepted_eq_contenders (complete : Settled svc s.calls) (k : String) :
    (attempts svc s k).countP Attempt.contends ≤ (callsOf svc s k).countP (Call.accepted svc) := by
  rw [attempts_eq_map, List.countP_map]
  refine List.countP_mono_left fun call mem contends => ?_
  obtain ⟨made, key⟩ := List.mem_filter.mp mem
  rcases returned_cases (h.coherent call made) (of_decide_eq_true key) (complete call made) with
    ⟨existing, taken, -⟩ | ⟨audit, -, accepted⟩
  · simp [taken, Attempt.contends] at contends
  · exact accepted

omit h

variable (svc audits events) in
theorem reached_run (turns : List Event) :
    Reached svc audits events (run (Ingestion.step svc) (start svc audits events) turns) :=
  run_invariant Reached.step (reached_start svc audits events) turns

/-- A batch that has taken its last chunk has a call for every event, in order. -/
theorem submissions_of_last {turns : List Event}
    (last : (run (Ingestion.step svc) (start svc audits events) turns).remaining = []) :
    (run (Ingestion.step svc) (start svc audits events) turns).calls.map Call.submission =
      events := by
  obtain ⟨done, split, calls⟩ := (reached_run svc audits events turns).taken
  rw [last, List.append_nil] at split
  rw [calls, ← split, flatten_chunks]

theorem proceed_of_returned {now : Nat} {random : String} (audits : AuditRepository) (call : Call)
    (returned : (call.result? svc).isSome = true) :
    (proceed svc now random audits call).2 = call := by
  obtain ⟨s, phase⟩ := call
  cases phase with
  | finding existing | saving audit => simp [Call.result?] at returned
  | _ => rfl

theorem returned_of_proceed_twice {now : Nat} {random : String} (r r' : AuditRepository)
    (call : Call) :
    ((proceed svc now random r' (proceed svc now random r call).2).2.result? svc).isSome = true := by
  obtain ⟨s, phase⟩ := call
  cases phase with
  | finding existing => cases existing <;> rfl
  | _ => rfl

/-- Two turns for each call of the current chunk. -/
def settleTurns (s : State) : List Event := settleEvents (.resume · 0 "") s.current.length

theorem settleTurns_spec (svc : Service) (s : State) :
    let t := run (step svc) s (settleTurns s)
    Settled svc t.current ∧ t.finished = s.finished ∧ t.remaining = s.remaining := by
  have settled : Settled svc (run (step svc) s (settleTurns s)).current :=
    done_of_settleEvents (fun _ => True) (fun _ _ _ => trivial) proceed_of_returned
      (fun r r' c _ => returned_of_proceed_twice r r' c)
      (fun s : State => (s.audits, s.current)) (Event.resume · 0 "") (fun _ _ => rfl)
      fun _ _ => trivial
  have still : ∀ n, (run (step svc) s (settleEvents (.resume · 0 "") n)).finished = s.finished ∧
      (run (step svc) s (settleEvents (.resume · 0 "") n)).remaining = s.remaining := by
    intro n
    induction n with
    | zero => exact ⟨rfl, rfl⟩
    | succ n ih =>
      rw [settleEvents, run_append]
      exact ih
  exact ⟨settled, (still _).1, (still _).2⟩

variable (svc audits events) in
/-- The loop gets to any of its chunks with the ones before it complete. -/
theorem exists_turns_to (done : List (List Submission)) : ∀ rest, chunks svc events = done ++ rest →
    ∃ turns, let s := run (step svc) (start svc audits events) turns
      s.remaining = rest ∧ Settled svc s.current := by
  induction done using List.reverseRecOn with
  | nil =>
    intro rest split
    exact ⟨[], split, by simp [start, Settled]⟩
  | append_singleton done chunk ih =>
    intro rest split
    obtain ⟨turns, more, complete⟩ := ih (chunk :: rest) (by rw [split]; simp)
    set s := run (step svc) (start svc audits events) turns with reached
    have taken := step_next complete more
    obtain ⟨complete', -, still⟩ := settleTurns_spec svc (step svc s .next)
    refine ⟨turns ++ .next :: settleTurns (step svc s .next), ?_⟩
    rw [run_append]
    exact ⟨still.trans (by rw [taken]), complete'⟩

theorem contenders_le_run (turns : List Event) : ∀ {s : State}, Reached svc audits events s →
    (attempts svc s k).countP Attempt.contends ≤
      (attempts svc (run (step svc) s turns) k).countP Attempt.contends := by
  induction turns with
  | nil => exact fun _ => le_rfl
  | cons e turns ih => exact fun h => (contenders_le_step h e k).trans (ih (h.step _ e))

/-- A batch that can clash has a run in which two events of one key are accepted. -/
theorem noClash_of_idempotent
    (always : ∀ turns, Idempotent svc audits (run (step svc) (start svc audits events) turns)) :
    NoClash svc audits events := by
  intro before chunk after split k initial fresh
  by_contra many
  obtain ⟨turns, more, complete⟩ := exists_turns_to svc audits events before (chunk :: after) split
  set s := run (step svc) (start svc audits events) turns with reached
  have h : Reached svc audits events s := reached_run svc audits events turns
  -- The chunk starts while nobody has tried the key.
  have untried : attempts svc s k = [] := by
    obtain ⟨done, split', calls⟩ := h.taken
    have sameDone : done = before := by
      rw [more, split] at split'
      exact List.append_cancel_right split'.symm
    refine List.map_eq_nil_iff.mpr (List.filter_eq_nil_iff.mpr fun call made => ?_)
    have := fresh call.submission (by rw [← sameDone, ← calls]; exact List.mem_map_of_mem made)
    exact fun key => this (of_decide_eq_true key)
  have free : s.audits.get? k = none := (h.untried k untried).trans initial
  have reads : ∀ call ∈ chunk.map (begin svc s.audits), call.key? svc = some k →
      call.attempt = readAttempt id none := by
    intro call mem key
    obtain ⟨sub, -, rfl⟩ := List.mem_map.mp mem
    have key' : sub.key? svc = some k := key
    rw [attempt_begin key', free]
  have both : 2 ≤ (attempts svc (step svc s .next) k).countP Attempt.contends := by
    rw [step_next complete more]
    show 2 ≤ (attemptsOn _ _ ((s.finished ++ s.current) ++ _) k).countP _
    rw [attemptsOn_append _ (chunk.map _), show attemptsOn _ _ (s.finished ++ s.current) k = [] from
      untried, List.nil_append, attemptsOn_eq_replicate reads, List.countP_replicate,
      List.countP_map]
    exact Nat.lt_of_not_le many
  -- Let the chunk run to its end.
  obtain ⟨complete', finished, -⟩ := settleTurns_spec svc (step svc s .next)
  have next := h.step s .next
  set t := run (step svc) (step svc s .next) (settleTurns (step svc s .next)) with settled
  have all : t = run (step svc) (start svc audits events)
      (turns ++ .next :: settleTurns (step svc s .next)) := by
    rw [run_append, run_cons]
  have ht : Reached svc audits events t := all ▸ reached_run svc audits events _
  have allComplete := List.forall_mem_append.mpr ⟨ht.complete, complete'⟩
  have once := (all ▸ always _ : Idempotent svc audits t).once k
  have := (contenders_le_run (k := k) (settleTurns (step svc s .next)) next).trans
    (accepted_eq_contenders ht allComplete k)
  omega

/-- `processBatch` is idempotent under every interleaving of its calls exactly
when no chunk has two valid events of one key that is free when it starts. -/
theorem processBatch_idempotent_iff (svc : Service) (audits : AuditRepository)
    (events : List Submission) :
    (∀ turns, Idempotent svc audits (run (step svc) (start svc audits events) turns)) ↔
      NoClash svc audits events := by
  refine ⟨noClash_of_idempotent, fun apart turns => ?_⟩
  have both : ∀ s e, Reached svc audits events s ∧ AllExclusive svc audits s →
      Reached svc audits events (step svc s e) ∧ AllExclusive svc audits (step svc s e) :=
    fun s e inv => ⟨inv.1.step s e, inv.2.step apart inv.1 e⟩
  obtain ⟨h, exclusive⟩ := run_invariant both
    ⟨reached_start svc audits events, fun k => exclusive_start id (audits.get? k)⟩ turns
  exact idempotent_of_exclusive h exclusive

/-- A service with chunks of two events, whose hash is the text itself. -/
def pairService : Service where
  host := lenientHost
  localeLe := codeUnitLe
  sha256 := fun s => s.toList.map fun c => c.toNat.toUInt8
  config := ⟨false, true, .ofNat 1000, 2⟩
  contractType := "escrow"
  correlationId := none

def amountEvent (amount : Nat) : Submission where
  event := .obj [("contractId", .str "c1"), ("eventId", .str "e1"), ("sequence", .num (.ofNat 5)),
    ("timestamp", .num (.ofNat 0)), ("payload", .obj [("amount", .num (.ofNat amount))])]
  now := 0

/-- Two events of one key with different payloads in one chunk: both read
before either saves, and both are accepted. -/
theorem both_accepted_in_one_chunk :
    (run (step pairService) (start pairService .empty [amountEvent 1, amountEvent 2])
      [.next, .resume 0 1 "a", .resume 1 1 "b", .resume 0 2 "", .resume 1 2 "", .next]).finished.map
        (fun call => (call.result? pairService).map EventIngestionResult.status) =
      [some .accepted, some .accepted] ∧
    ¬ Idempotent pairService .empty
      (run (step pairService) (start pairService .empty [amountEvent 1, amountEvent 2])
        [.next, .resume 0 1 "a", .resume 1 1 "b", .resume 0 2 "", .resume 1 2 "", .next]) := by
  refine ⟨by decide +kernel, fun idempotent => ?_⟩
  have once := idempotent.once "c1:e1:5"
  revert once
  decide +kernel

theorem submissions_of_one_chunk :
    (run (step pairService) (start pairService .empty [amountEvent 1, amountEvent 2])
      [.next]).calls.map Call.submission = [amountEvent 1, amountEvent 2] :=
  submissions_of_last (by decide +kernel)

end TalentTrust.Events.Ingestion
