import TalentTrust.Lib.Run
import TalentTrust.Lib.OrderedMap
import TalentTrust.Webhook.DLQ

/-!
Webhook deliveries (`services/webhook.service.ts`): `send` with its retries,
and the replay of dead letters one by one and in bulk.

The calls that have been made stand in a list, in the order in which they
started. A call runs until it waits: for the response of the receiver, for the
timer before the next attempt, or for one of the promises of `addEntry`. Each
`turn` lets one call run to its next wait, so that a run is any interleaving.

`Fate` is what becomes of one event, whatever the service does to the others:
it is delivered, or it has a pending row, or its row was dropped on purpose.
Every step moves every fate by `FateStep`, except that a replay marks a pending
row as replayed without posting anything: the row is its own duplicate
(`replayDLQEntry_spec`). So nothing is lost exactly as long as replays only
meet events that some other call has delivered (`no_event_lost_iff`).
-/

namespace TalentTrust.Webhook

open TalentTrust.Lib
open WebhookDLQStorage (NewEntry)

/-! ### The service -/

/-- The configuration of the service, and what it takes from its platform. -/
structure Settings extends DLQConfig where
  maxAttempts : Nat
  maxPayloadSizeBytes : Nat
  hostRateLimitMax : Nat
  hostRateLimitWindowMs : Int
  isSafeUrl : String → Bool
  /-- `new URL(url).hostname`. -/
  hostname : String → String

structure WebhookPayload where
  id : String
  url : String
  data : Json
  retryCount : Nat
  webhookSecret : Option String
  deriving DecidableEq

def WebhookPayload.event (payload : WebhookPayload) : Event := ⟨payload.id, payload.data⟩

structure RateLimitEntry where
  count : Nat
  windowStart : Int
  deriving DecidableEq

/-- How far a call of `send` has come: it waits for the timer before an attempt,
for the response to an attempt, for the count in `addEntry`, or for the eviction
there. -/
inductive Stage where
  | waiting (attempt : Nat) (lastError : Option String)
  | posting (attempt : Nat)
  | counted (reason : String) (now : Int) (count : Nat)
  | evicted (reason : String) (now : Int)
  deriving DecidableEq

structure ReplayAnswer where
  success : Bool
  message : String
  deriving DecidableEq

structure ReplaySummary where
  attempted : Nat
  succeeded : Nat
  failed : Nat
  deduped : Nat
  deriving DecidableEq

/-- A call and its progress. `replayOf` is the row that is replayed by the
delivery; a bulk replay has the ids that are left and the positions of the
calls of its current batch. -/
inductive Call where
  | sending (payload : WebhookPayload) (stage : Stage) (replayOf : Option Nat)
  | sent
  | marking (id : Nat)
  | replayed (answer : ReplayAnswer)
  | bulk (concurrency : Nat) (remaining batch : List Nat) (summary : ReplaySummary)
  | bulkDone (summary : ReplaySummary)
  deriving DecidableEq

/-- The table, the counters of the rate limit and the calls; and, as history, the
events that were posted successfully, those whose latest row was evicted or
deleted as poison, and those that some returned call of `send` was about. -/
structure State (p : Settings) where
  storage : WebhookDLQStorage p.toDLQConfig
  hostRateStore : OrderedMap String RateLimitEntry
  calls : List Call
  delivered : List Event
  dropped : List Event
  returned : List Event

variable {p : Settings}

def initial (p : Settings) : State p :=
  ⟨WebhookDLQStorage.empty p.toDLQConfig, OrderedMap.empty, [], [], [], []⟩

def checkHostRateLimit (p : Settings) (store : OrderedMap String RateLimitEntry) (hostname : String)
    (now : Int) : Bool × OrderedMap String RateLimitEntry :=
  let entry := (store.get? hostname).getD ⟨0, now⟩
  let entry := if p.hostRateLimitWindowMs < now - entry.windowStart then ⟨0, now⟩ else entry
  let entry := { entry with count := entry.count + 1 }
  (decide (entry.count ≤ p.hostRateLimitMax), store.set hostname entry)

/-- `persistToDLQ` up to the first wait of `addEntry`. -/
def persistToDLQ (s : State p) (reason : String) (now : Int) : Stage :=
  .counted reason now s.storage.getPendingCount

variable (s : State p) (payload : WebhookPayload)

/-- The loop of `send` from attempt `n` on, up to the next wait. -/
def attempt (n : Nat) (lastError : Option String)
    (now : Int) : OrderedMap String RateLimitEntry × Stage :=
  if p.maxAttempts ≤ n then
    (s.hostRateStore,
      persistToDLQ s ("WEBHOOK_RETRY_EXHAUSTED: " ++ lastError.getD "Unknown error") now)
  else if p.isSafeUrl payload.url = false then
    (s.hostRateStore,
      persistToDLQ s "WEBHOOK_SSRF_BLOCKED: destination URL is private or invalid" now)
  else
    let hostname := p.hostname payload.url
    let (allowed, store) := checkHostRateLimit p s.hostRateStore hostname now
    if allowed then (store, .posting n)
    else
      (store,
        persistToDLQ s ("WEBHOOK_RATE_LIMITED: host " ++ hostname ++ " exceeded delivery limit") now)

def startSend (now : Int) : OrderedMap String RateLimitEntry × Stage :=
  let payloadBytes := (utf8Bytes (Json.stringify payload.data)).length
  if p.maxPayloadSizeBytes < payloadBytes then
    (s.hostRateStore,
      persistToDLQ s ("WEBHOOK_PAYLOAD_TOO_LARGE: payload " ++ toString payloadBytes ++
        " bytes exceeds limit of " ++ toString p.maxPayloadSizeBytes ++ " bytes") now)
  else attempt s payload 0 none now

def send (replayOf : Option Nat) (now : Int) : State p :=
  { s with
    hostRateStore := (startSend s payload now).1
    calls := s.calls ++ [.sending payload (startSend s payload now).2 replayOf] }

/-- How `axios.post` ends. An error has the status of the response, if there was
one, and a message. -/
inductive Answer where
  | ok
  | failed (status : Option Nat) (message : Option String)
  deriving DecidableEq

/-- The call of `send` at `i` returns. -/
def returnSend (i : Nat) (payload : WebhookPayload) (replayOf : Option Nat) : State p :=
  { s with
    calls := s.calls.set i (match replayOf with
      | none => .sent
      | some id => .marking id)
    returned := payload.event :: s.returned }

def WebhookPayload.newEntry (reason : String) (now : Int) : NewEntry where
  webhookId := payload.id
  url := payload.url
  body := payload.data
  retryCount := payload.retryCount
  lastError := reason
  webhookSecret := payload.webhookSecret
  now := now

variable (s : State p)

/-- The end of `addEntry`, `persistToDLQ` and `send`: a duplicate is ignored. -/
def insertEntry (i : Nat) (payload : WebhookPayload) (reason : String) (failedAt : Int)
    (replayOf : Option Nat) : State p :=
  match s.storage.insert (payload.newEntry reason failedAt) with
  | none => returnSend s i payload replayOf
  | some storage =>
    { returnSend s i payload replayOf with
      storage := storage
      dropped := s.dropped.filter (· ≠ payload.event) }

def evict : State p :=
  match s.storage.oldestPending with
  | none => s
  | some e =>
    { s with
      storage := s.storage.evictOldest
      dropped := e.event :: s.dropped }

variable (i : Nat) (payload : WebhookPayload)

def receive (n : Nat) (replayOf : Option Nat) (now : Int) : Answer → State p
  | .ok =>
    { returnSend s i payload replayOf with
      delivered := payload.event :: s.delivered }
  | .failed status message =>
    let payload := { payload with retryCount := n + 1 }
    match status.filter fun code => 400 ≤ code ∧ code < 500 with
    | some code =>
      let reason := "WEBHOOK_DELIVERY_4XX: downstream returned HTTP " ++ toString code
      { s with calls := s.calls.set i (.sending payload (persistToDLQ s reason now) replayOf) }
    | none =>
      if n + 1 < p.maxAttempts then
        { s with calls := s.calls.set i (.sending payload (.waiting (n + 1) message) replayOf) }
      else
        { s with
          hostRateStore := (attempt s payload (n + 1) message now).1
          calls := s.calls.set i
            (.sending payload (attempt s payload (n + 1) message now).2 replayOf) }

/-- The call of `send` at `i` runs to its next wait. -/
def resumeSend (replayOf : Option Nat) (now : Int) (answer : Answer) : Stage → State p
  | .waiting n lastError =>
    { s with
      hostRateStore := (attempt s payload n lastError now).1
      calls := s.calls.set i (.sending payload (attempt s payload n lastError now).2 replayOf) }
  | .posting n => receive s i payload n replayOf now answer
  | .counted reason failedAt count =>
    if p.maxCapacity ≤ count then
      { evict s with calls := s.calls.set i (.sending payload (.evicted reason failedAt) replayOf) }
    else insertEntry s i payload reason failedAt replayOf
  | .evicted reason failedAt => insertEntry s i payload reason failedAt replayOf

def answerReplay (success : Bool) (message : String) : State p :=
  { s with calls := s.calls ++ [.replayed ⟨success, message⟩] }

def deduplicated : String := "Deduplicated - entry already pending replay"

/-- `replayDLQEntry` up to its first wait, if it has one. -/
def replayDLQEntry (now : Int) (s : State p) (id : Nat) : State p :=
  match s.storage.getEntry id with
  | none => answerReplay s false "Entry not found"
  | some entry =>
    if entry.replayedAt.isSome then answerReplay s false "Entry already replayed"
    else
      match s.storage.checkDedupe entry.webhookId entry.body with
      | some _ =>
        answerReplay { s with storage := s.storage.markReplayed id now } true deduplicated
      | none => send s ⟨entry.webhookId, entry.url, entry.body, 0, entry.webhookSecret⟩ (some id) now

def ReplaySummary.count (summary : ReplaySummary) (answer : ReplayAnswer) : ReplaySummary :=
  if answer.success ∧ answer.message = deduplicated then
    { summary with attempted := summary.attempted + 1, deduped := summary.deduped + 1 }
  else if answer.success then
    { summary with attempted := summary.attempted + 1, succeeded := summary.succeeded + 1 }
  else { summary with attempted := summary.attempted + 1, failed := summary.failed + 1 }

/-- The bulk replay at `i` starts its next batch, or returns. -/
def nextBatch (i concurrency : Nat) (remaining : List Nat) (summary : ReplaySummary)
    (now : Int) : State p :=
  if remaining = [] then { s with calls := s.calls.set i (.bulkDone summary) }
  else
    let batch := remaining.take concurrency
    let positions := List.range' s.calls.length batch.length
    batch.foldl (replayDLQEntry now)
      { s with calls := s.calls.set i (.bulk concurrency (remaining.drop concurrency) positions summary) }

/-- The ids that `replayAll` goes through. -/
def pendingIds : List Nat :=
  ((s.storage.listEntries { limit := 10000 }).filter fun e => e.replayedAt.isNone).map
    WebhookDLQEntry.id

def replayAll (concurrency : Option Nat) (now : Int) : State p :=
  nextBatch { s with calls := s.calls ++ [.bulk (max 1 (concurrency.getD 5)) [] [] ⟨0, 0, 0, 0⟩] }
    s.calls.length (max 1 (concurrency.getD 5)) (pendingIds s) ⟨0, 0, 0, 0⟩ now

/-- The answers of a batch, once all its calls have returned. -/
def settled (calls : List Call) (batch : List Nat) : Option (List ReplayAnswer) :=
  batch.mapM fun i =>
    match calls[i]? with
    | some (Call.replayed answer) => some answer
    | _ => none

/-- The call at `i` runs to its next wait. -/
def turn (now : Int) (answer : Answer) : State p :=
  match s.calls[i]? with
  | some (.sending payload stage replayOf) => resumeSend s i payload replayOf now answer stage
  | some (.marking id) =>
    { s with
      storage := s.storage.markReplayed id now
      calls := s.calls.set i (.replayed ⟨true, "Replay successful"⟩) }
  | some (.bulk concurrency remaining batch summary) =>
    match settled s.calls batch with
    | none => s
    | some answers =>
      nextBatch s i concurrency remaining (answers.foldl ReplaySummary.count summary) now
  | _ => s

/-- `incrementReplayAttempts`, which deletes a poison message. -/
def poison (id : Nat) (now : Int) : State p :=
  let (result, storage) := s.storage.incrementReplayAttempts id now
  { s with
    storage := storage
    dropped := if result.maxExceeded then
      ((s.storage.getEntry id).map WebhookDLQEntry.event).toList ++ s.dropped else s.dropped }

/-- The sweep of the rate limit store, with its default window. -/
def sweep (now : Int) : State p :=
  { s with hostRateStore := s.hostRateStore.filter fun e => now - e.2.windowStart ≤ 60000 }

inductive Step where
  | send (payload : WebhookPayload) (now : Int)
  | replay (id : Nat) (now : Int)
  | replayAll (concurrency : Option Nat) (now : Int)
  | turn (i : Nat) (now : Int) (answer : Answer)
  | poison (id : Nat) (now : Int)
  | sweep (now : Int)
  deriving DecidableEq

def step : Step → State p
  | .send payload now => send s payload none now
  | .replay id now => replayDLQEntry now s id
  | .replayAll concurrency now => replayAll s concurrency now
  | .turn i now answer => turn s i now answer
  | .poison id now => poison s id now
  | .sweep now => sweep s now

/-! ### The fate of an event -/

structure Fate where
  status : Status
  delivered : Bool
  dropped : Bool
  returned : Bool
  deriving DecidableEq

/-- What may become of one event in one step. A row is marked replayed only
when the event was delivered. -/
inductive FateStep : Fate → Fate → Prop where
  | post (f : Fate) : FateStep f { f with delivered := true, returned := true }
  | insert (f : Fate) : FateStep f { f with status := .pending, dropped := false, returned := true }
  | refuse (f : Fate) (present : f.status ≠ .absent) : FateStep f { f with returned := true }
  | drop (f : Fate) : FateStep f { f with status := .absent, dropped := true }
  | replay (f : Fate) (delivered : f.delivered = true) : FateStep f { f with status := .replayed }

/-- The event is not lost: once a call about it has returned it is delivered or
pending, unless its row was dropped; and it is replayed only if it is delivered. -/
structure Fate.Kept (f : Fate) : Prop where
  known : f.returned = true → f.delivered = true ∨ f.status = .pending ∨ f.dropped = true
  replayed : f.status = .replayed → f.delivered = true

theorem FateStep.kept {f g : Fate} (moves : FateStep f g) (kept : f.Kept) : g.Kept := by
  cases moves with
  | post => exact ⟨fun _ => .inl rfl, fun _ => rfl⟩
  | insert => exact ⟨fun _ => .inr (.inl rfl), fun replayed => Status.noConfusion replayed⟩
  | refuse present =>
    refine ⟨fun _ => ?_, kept.replayed⟩
    cases held : f.status with
    | absent => exact absurd held present
    | pending => exact .inr (.inl rfl)
    | replayed => exact .inl (kept.replayed held)
  | drop => exact ⟨fun _ => .inr (.inr rfl), fun replayed => Status.noConfusion replayed⟩
  | replay delivered => exact ⟨fun _ => .inl delivered, fun _ => delivered⟩

def fate (E : Event) : Fate :=
  ⟨s.storage.status E, s.delivered.contains E, s.dropped.contains E, s.returned.contains E⟩

/-- No event is lost in this state. -/
def NoEventLost : Prop := ∀ E, (fate s E).Kept

/-- What a step does to every event: nothing, or one move. -/
def Moves (s t : State p) : Prop := ∀ E, fate t E = fate s E ∨ FateStep (fate s E) (fate t E)

theorem Moves.noEventLost {s t : State p} (moves : Moves s t) (none : NoEventLost s) :
    NoEventLost t := by
  intro E
  rcases moves E with same | moved
  · rw [same]
    exact none E
  · exact moved.kept (none E)

theorem moves_of_same {s t : State p} (storage : t.storage = s.storage)
    (delivered : t.delivered = s.delivered) (dropped : t.dropped = s.dropped)
    (returned : t.returned = s.returned) : Moves s t := by
  intro E
  left
  unfold fate
  rw [storage, delivered, dropped, returned]

/-- A step that moves one event, and leaves the fate of all others as it was. -/
theorem moves_of_event {s t : State p} (E : Event) (others : ∀ F, F ≠ E → fate t F = fate s F)
    (moved : FateStep (fate s E) (fate t E)) : Moves s t := by
  intro F
  by_cases same : F = E
  · exact .inr (same ▸ moved)
  · exact .inl (others F same)

/-! ### Sending -/

variable (s : State p) (i : Nat) (payload : WebhookPayload)

theorem moves_deliver (replayOf : Option Nat) :
    Moves s { returnSend s i payload replayOf with delivered := payload.event :: s.delivered } := by
  refine moves_of_event payload.event (fun F other => by simp [fate, returnSend, other]) ?_
  convert FateStep.post (fate s payload.event) using 1
  simp [fate, returnSend]

theorem moves_insertEntry (reason : String) (failedAt : Int) (replayOf : Option Nat) :
    Moves s (insertEntry s i payload reason failedAt replayOf) := by
  unfold insertEntry
  cases inserted : s.storage.insert (payload.newEntry reason failedAt) with
  | none =>
    have present : s.storage.status payload.event ≠ .absent :=
      WebhookDLQStorage.insert_eq_none_iff.mp inserted
    refine moves_of_event payload.event (fun F other => by simp [fate, returnSend, other]) ?_
    convert FateStep.refuse (fate s payload.event) present using 1
    simp [fate, returnSend]
  | some storage =>
    have status : ∀ F, storage.status F = if F = payload.event then .pending else s.storage.status F :=
      WebhookDLQStorage.status_insert inserted
    refine moves_of_event payload.event (fun F other => by simp [fate, returnSend, status, other]) ?_
    convert FateStep.insert (fate s payload.event) using 1
    simp [fate, returnSend, status]

theorem moves_drop {s t : State p} {e : WebhookDLQEntry} (mem : e ∈ s.storage.rows)
    (storage : t.storage = s.storage.deleteEntry e.id) (dropped : t.dropped = e.event :: s.dropped)
    (delivered : t.delivered = s.delivered) (returned : t.returned = s.returned) : Moves s t := by
  have status := s.storage.status_deleteEntry mem
  refine moves_of_event e.event (fun F other => ?_) ?_
  · simp [fate, storage, delivered, dropped, returned, status, other]
  · convert FateStep.drop (fate s e.event) using 1
    simp [fate, storage, delivered, dropped, returned, status]

theorem moves_evict : Moves s (evict s) := by
  unfold evict
  cases oldest : s.storage.oldestPending with
  | none => exact moves_of_same rfl rfl rfl rfl
  | some e =>
    refine moves_drop (WebhookDLQStorage.mem_of_oldestPending oldest).1 ?_ rfl rfl rfl
    simp [WebhookDLQStorage.evictOldest, oldest]

theorem moves_poison (id : Nat) (now : Int) : Moves s (poison s id now) := by
  unfold poison WebhookDLQStorage.incrementReplayAttempts
  cases found : s.storage.getEntry id with
  | none => exact moves_of_same rfl rfl rfl rfl
  | some e =>
    obtain ⟨mem, rfl⟩ := s.storage.getEntry_eq_some_iff.mp found
    by_cases exceeded : p.maxReplayAttempts ≤ e.replayAttempts + 1
    · simp only [exceeded, if_true]
      exact moves_drop mem rfl rfl rfl rfl
    · simp only [exceeded, if_false]
      intro E
      left
      have status := s.storage.status_update_of_keeps e.id
        (fun row => ⟨row.replayedAt, e.replayAttempts + 1, now⟩) (fun _ => rfl) E
      simp [fate, status]

theorem moves_receive (n : Nat) (replayOf : Option Nat) (now : Int) (answer : Answer) :
    Moves s (receive s i payload n replayOf now answer) := by
  cases answer with
  | ok => exact moves_deliver s i payload replayOf
  | failed status message =>
    simp only [receive]
    split
    · exact moves_of_same rfl rfl rfl rfl
    · split <;> exact moves_of_same rfl rfl rfl rfl

theorem moves_resumeSend (replayOf : Option Nat) (now : Int) (answer : Answer) (stage : Stage) :
    Moves s (resumeSend s i payload replayOf now answer stage) := by
  cases stage with
  | waiting n lastError => exact moves_of_same rfl rfl rfl rfl
  | posting n => exact moves_receive s i payload n replayOf now answer
  | counted reason failedAt count =>
    simp only [resumeSend]
    split
    · exact moves_evict s
    · exact moves_insertEntry s i payload reason failedAt replayOf
  | evicted reason failedAt => exact moves_insertEntry s i payload reason failedAt replayOf

/-! ### Replaying -/

/-- What a replay does to the table: it marks the row, if the row is pending. -/
def markPending (now : Int) (storage : WebhookDLQStorage p.toDLQConfig) (id : Nat) :
    WebhookDLQStorage p.toDLQConfig :=
  match storage.getEntry id with
  | none => storage
  | some e => if e.replayedAt.isSome then storage else storage.markReplayed id now

/-- A replay answers at once. It never gets to its delivery, since the row that
it replays is pending and so is found by `checkDedupe`. -/
theorem replayDLQEntry_spec (now : Int) (s : State p) (id : Nat) :
    ∃ answer, replayDLQEntry now s id =
      { s with storage := markPending now s.storage id, calls := s.calls ++ [.replayed answer] } := by
  unfold replayDLQEntry markPending
  cases found : s.storage.getEntry id with
  | none => exact ⟨_, rfl⟩
  | some e =>
    obtain ⟨mem, rfl⟩ := s.storage.getEntry_eq_some_iff.mp found
    by_cases replayed : e.replayedAt.isSome
    · simp only [replayed, if_true]
      exact ⟨_, rfl⟩
    · have pending : e.replayedAt = none := by simpa using replayed
      simp only [pending, Option.isSome_none, Bool.false_eq_true, if_false,
        s.storage.checkDedupe_self mem pending]
      exact ⟨_, rfl⟩

theorem foldl_replayDLQEntry (now : Int) : ∀ (ids : List Nat) (s : State p),
    ∃ answers : List ReplayAnswer, ids.foldl (replayDLQEntry now) s =
      { s with
        storage := ids.foldl (markPending now) s.storage
        calls := s.calls ++ answers.map Call.replayed }
  | [], s => ⟨[], by simp⟩
  | id :: ids, s => by
      obtain ⟨answer, first⟩ := replayDLQEntry_spec now s id
      obtain ⟨answers, rest⟩ := foldl_replayDLQEntry now ids (replayDLQEntry now s id)
      refine ⟨answer :: answers, ?_⟩
      rw [List.foldl_cons, rest, first]
      simp

section Marks

variable (now : Int) {storage : WebhookDLQStorage p.toDLQConfig} {e : WebhookDLQEntry}

theorem markPending_of_row (mem : e ∈ storage.rows) : markPending now storage e.id =
      if e.replayedAt.isSome then storage else storage.markReplayed e.id now := by
  unfold markPending
  rw [storage.getEntry_eq_some_iff.mpr ⟨mem, rfl⟩]

theorem markPending_of_missing {id : Nat} (missing : ∀ e ∈ storage.rows, e.id ≠ id) :
    markPending now storage id = storage := by
  unfold markPending
  cases found : storage.getEntry id with
  | none => rfl
  | some e =>
    obtain ⟨mem, same⟩ := storage.getEntry_eq_some_iff.mp found
    exact absurd same (missing e mem)

theorem status_markPending_self (mem : e ∈ storage.rows) :
    (markPending now storage e.id).status e.event = .replayed := by
  rw [markPending_of_row now mem]
  split
  · rename_i replayed
    exact WebhookDLQStorage.status_eq_replayed_iff.mpr ⟨e, mem, rfl, replayed⟩
  · rw [storage.status_markReplayed mem, if_pos rfl]

variable (storage) in
theorem status_markPending (id : Nat) (E : Event) :
    (markPending now storage id).status E = storage.status E ∨
      (markPending now storage id).status E = .replayed ∧
        ∃ e ∈ storage.rows, e.id = id ∧ e.replayedAt = none ∧ e.event = E := by
  by_cases held : ∃ e ∈ storage.rows, e.id = id
  · obtain ⟨e, mem, rfl⟩ := held
    by_cases same : E = e.event
    · subst same
      by_cases replayed : e.replayedAt.isSome
      · left
        rw [markPending_of_row now mem, if_pos replayed]
      · refine .inr ⟨status_markPending_self now mem, e, mem, rfl, ?_, rfl⟩
        simpa using replayed
    · left
      rw [markPending_of_row now mem]
      split
      · rfl
      · rw [storage.status_markReplayed mem, if_neg same]
  · left
    rw [markPending_of_missing now fun e mem same => held ⟨e, mem, same⟩]

theorem mem_markPending {id : Nat} :
    (e ∈ storage.rows → e.id ≠ id → e ∈ (markPending now storage id).rows) ∧
      (e ∈ (markPending now storage id).rows → e.replayedAt = none → e ∈ storage.rows) := by
  by_cases held : ∃ e ∈ storage.rows, e.id = id
  · obtain ⟨row, found, rfl⟩ := held
    rw [markPending_of_row now found]
    split
    · exact ⟨fun mem _ => mem, fun mem _ => mem⟩
    · refine ⟨fun mem other => List.mem_map.mpr ⟨e, mem, if_neg other⟩, fun written pending => ?_⟩
      obtain ⟨before, mem, rfl⟩ := List.mem_map.mp written
      split at pending
      · cases pending
      · rename_i other
        rw [if_neg other]
        exact mem
  · rw [markPending_of_missing now fun e mem same => held ⟨e, mem, same⟩]
    exact ⟨fun mem _ => mem, fun mem _ => mem⟩

theorem status_foldl_markPending : ∀ (ids : List Nat) (storage : WebhookDLQStorage p.toDLQConfig)
    (E : Event), (ids.foldl (markPending now) storage).status E = storage.status E ∨
      (ids.foldl (markPending now) storage).status E = .replayed ∧
        ∃ e ∈ storage.rows, e.id ∈ ids ∧ e.replayedAt = none ∧ e.event = E
  | [], storage, E => .inl rfl
  | id :: ids, storage, E => by
      rw [List.foldl_cons]
      rcases status_foldl_markPending ids (markPending now storage id) E with
        same | ⟨replayed, e, mem, listed, pending, event⟩
      · rcases status_markPending now storage id E with first | ⟨first, e, mem, rfl, pending, event⟩
        · exact .inl (same.trans first)
        · exact .inr ⟨same.trans first, e, mem, List.mem_cons_self, pending, event⟩
      · exact .inr ⟨replayed, e, (mem_markPending now).2 mem pending,
          List.mem_cons_of_mem _ listed, pending, event⟩

theorem status_foldl_markPending_self : ∀ (ids : List Nat)
    (storage : WebhookDLQStorage p.toDLQConfig) {e : WebhookDLQEntry}, e ∈ storage.rows → e.id ∈ ids →
      (ids.foldl (markPending now) storage).status e.event = .replayed
  | id :: ids, storage, e, mem, listed => by
      rw [List.foldl_cons]
      by_cases same : e.id = id
      · subst same
        have first := status_markPending_self now mem
        rcases status_foldl_markPending now ids (markPending now storage e.id) e.event with rest | rest
        · exact rest.trans first
        · exact rest.1
      · have later := (List.mem_cons.mp listed).resolve_left same
        exact status_foldl_markPending_self ids _ ((mem_markPending now).1 mem same) later

end Marks

/-! ### Runs -/

/-- The ids of the rows that a step replays. -/
def replayedIds : Step → List Nat
  | .replay id _ => [id]
  | .replayAll concurrency _ => (pendingIds s).take (max 1 (concurrency.getD 5))
  | .turn i _ _ =>
    match s.calls[i]? with
    | some (.bulk concurrency remaining batch _) =>
      if (settled s.calls batch).isSome then remaining.take concurrency else []
    | _ => []
  | _ => []

/-- The pending rows that the step replays are of events that were delivered in
the meantime, by another call. -/
def ReplaysDelivered (e : Step) : Prop :=
  ∀ row ∈ s.storage.rows, row.id ∈ replayedIds s e → row.replayedAt = none → row.event ∈ s.delivered

/-- No delivery is under way on behalf of a replay. -/
def Call.ofReplay : Call → Bool
  | .sending _ _ (some _) | .marking _ => true
  | _ => false

def NoReplaySends : Prop := ∀ c ∈ s.calls, c.ofReplay = false

/-- The step does nothing but mark the rows of these ids. -/
def OnlyMarks (ids : List Nat) (s t : State p) : Prop :=
  ∃ now, t.storage = ids.foldl (markPending now) s.storage ∧ t.delivered = s.delivered ∧
    t.dropped = s.dropped ∧ t.returned = s.returned

theorem onlyMarks_nextBatch (concurrency : Nat) (remaining : List Nat) (summary : ReplaySummary)
    (now : Int) :
    OnlyMarks (remaining.take concurrency) s (nextBatch s i concurrency remaining summary now) := by
  refine ⟨now, ?_⟩
  unfold nextBatch
  split
  · rename_i last
    rw [last, List.take_nil]
    exact ⟨rfl, rfl, rfl, rfl⟩
  · obtain ⟨answers, batch⟩ := foldl_replayDLQEntry now (remaining.take concurrency)
      { s with calls := s.calls.set i (.bulk concurrency (remaining.drop concurrency)
          (List.range' s.calls.length (remaining.take concurrency).length) summary) }
    simp only [batch, and_self]

/-- A step marks the rows that it replays; one that replays none moves every
event as it may. -/
theorem step_spec {s : State p} (quiet : NoReplaySends s) (e : Step) :
    OnlyMarks (replayedIds s e) s (step s e) ∨ replayedIds s e = [] ∧ Moves s (step s e) := by
  cases e with
  | send payload now | sweep now => exact .inr ⟨rfl, moves_of_same rfl rfl rfl rfl⟩
  | replay id now =>
    obtain ⟨answer, spec⟩ := replayDLQEntry_spec now s id
    left
    exact ⟨now, by rw [step, spec]; rfl, by rw [step, spec], by rw [step, spec], by rw [step, spec]⟩
  | replayAll concurrency now => exact .inl (onlyMarks_nextBatch _ _ _ _ _ _)
  | turn i now answer =>
    simp only [step, turn, replayedIds]
    cases found : s.calls[i]? with
    | none => exact .inr ⟨rfl, moves_of_same rfl rfl rfl rfl⟩
    | some c =>
      cases c with
      | sending payload stage replayOf =>
        exact .inr ⟨rfl, moves_resumeSend s i payload replayOf now answer stage⟩
      | sent | replayed answer | bulkDone summary => exact .inr ⟨rfl, moves_of_same rfl rfl rfl rfl⟩
      | marking id => exact absurd (quiet _ (List.mem_of_getElem? found)) (by simp [Call.ofReplay])
      | bulk concurrency remaining batch summary =>
        simp only
        cases settled s.calls batch with
        | none => exact .inr ⟨rfl, moves_of_same rfl rfl rfl rfl⟩
        | some answers => exact .inl (onlyMarks_nextBatch _ _ _ _ _ _)
  | poison id now => exact .inr ⟨rfl, moves_poison s id now⟩

theorem OnlyMarks.moves {s t : State p} {ids : List Nat} (marks : OnlyMarks ids s t)
    (delivered : ∀ row ∈ s.storage.rows, row.id ∈ ids → row.replayedAt = none →
      row.event ∈ s.delivered) : Moves s t := by
  obtain ⟨now, storage, sameDelivered, sameDropped, sameReturned⟩ := marks
  intro E
  rcases status_foldl_markPending now ids s.storage E with same | ⟨replayed, row, mem, listed, pending, rfl⟩
  · left
    simp [fate, storage, same, sameDelivered, sameDropped, sameReturned]
  · right
    have posted : (fate s row.event).delivered = true := by
      simpa [fate] using delivered row mem listed pending
    convert FateStep.replay (fate s row.event) posted using 1
    simp [fate, storage, replayed, sameDelivered, sameDropped, sameReturned]

/-! #### Replays never open a delivery -/

theorem noReplaySends_nextBatch {s : State p} (quiet : NoReplaySends s) (i concurrency : Nat)
    (remaining : List Nat) (summary : ReplaySummary) (now : Int) :
    NoReplaySends (nextBatch s i concurrency remaining summary now) := by
  unfold nextBatch
  split
  · exact forall_mem_set quiet rfl i
  · obtain ⟨answers, batch⟩ := foldl_replayDLQEntry now (remaining.take concurrency)
      { s with calls := s.calls.set i (.bulk concurrency (remaining.drop concurrency)
          (List.range' s.calls.length (remaining.take concurrency).length) summary) }
    simp only [batch]
    refine List.forall_mem_append.mpr ⟨forall_mem_set quiet rfl i, ?_⟩
    exact List.forall_mem_map.mpr fun _ _ => rfl

theorem calls_insertEntry (reason : String) (failedAt : Int) :
    (insertEntry s i payload reason failedAt none).calls = s.calls.set i .sent := by
  unfold insertEntry
  split <;> rfl

theorem calls_resumeSend (now : Int) (answer : Answer) (stage : Stage) :
    (resumeSend s i payload none now answer stage).calls = s.calls.set i .sent ∨
      ∃ payload' stage', (resumeSend s i payload none now answer stage).calls =
        s.calls.set i (.sending payload' stage' none) := by
  cases stage with
  | waiting n lastError => exact .inr ⟨_, _, rfl⟩
  | posting n =>
    cases answer with
    | ok => exact .inl rfl
    | failed status message =>
      simp only [resumeSend, receive]
      split
      · exact .inr ⟨_, _, rfl⟩
      · split <;> exact .inr ⟨_, _, rfl⟩
  | counted reason failedAt count =>
    simp only [resumeSend]
    split
    · exact .inr ⟨_, _, rfl⟩
    · exact .inl (calls_insertEntry s i payload reason failedAt)
  | evicted reason failedAt => exact .inl (calls_insertEntry s i payload reason failedAt)

theorem noReplaySends_step {s : State p} (quiet : NoReplaySends s) (e : Step) :
    NoReplaySends (step s e) := by
  cases e with
  | send payload now =>
    exact forall_mem_concat quiet rfl
  | replay id now =>
    obtain ⟨answer, spec⟩ := replayDLQEntry_spec now s id
    simp only [step, spec]
    exact forall_mem_concat quiet rfl
  | replayAll concurrency now =>
    refine noReplaySends_nextBatch ?_ _ _ _ _ _
    exact forall_mem_concat quiet rfl
  | turn i now answer =>
    simp only [step, turn]
    cases found : s.calls[i]? with
    | none => exact quiet
    | some c =>
      cases c with
      | sending payload stage replayOf =>
        cases replayOf with
        | some id =>
          exact absurd (quiet _ (List.mem_of_getElem? found)) (by simp [Call.ofReplay])
        | none =>
          simp only [NoReplaySends]
          rcases calls_resumeSend s i payload now answer stage with ended | ⟨payload', stage', going⟩
          · rw [ended]
            exact forall_mem_set quiet rfl i
          · rw [going]
            exact forall_mem_set quiet rfl i
      | sent => exact quiet
      | marking id => exact absurd (quiet _ (List.mem_of_getElem? found)) (by simp [Call.ofReplay])
      | replayed answer => exact quiet
      | bulk concurrency remaining batch summary =>
        simp only
        cases settled s.calls batch with
        | none => exact quiet
        | some answers => exact noReplaySends_nextBatch quiet _ _ _ _ _
      | bulkDone summary => exact quiet
  | poison id now | sweep now => exact quiet

/-! #### Nothing is lost -/

theorem noEventLost_step {s : State p} {e : Step} (quiet : NoReplaySends s) (kept : NoEventLost s)
    (delivered : ReplaysDelivered s e) : NoEventLost (step s e) := by
  rcases step_spec quiet e with marks | ⟨-, moves⟩
  · exact (marks.moves delivered).noEventLost kept
  · exact moves.noEventLost kept

/-- A replay of an event that was not delivered loses it. -/
theorem replaysDelivered_of_noEventLost {s : State p} {e : Step} (quiet : NoReplaySends s)
    (kept : NoEventLost (step s e)) : ReplaysDelivered s e := by
  intro row mem listed pending
  rcases step_spec quiet e with ⟨now, storage, sameDelivered, -, -⟩ | ⟨empty, -⟩
  · have replayed : (fate (step s e) row.event).status = .replayed := by
      simp only [fate, storage]
      exact status_foldl_markPending_self now _ s.storage mem listed
    have posted := (kept row.event).replayed replayed
    simpa [fate, sameDelivered] using posted
  · rw [empty] at listed
    exact absurd listed List.not_mem_nil

theorem noEventLost_initial (p : Settings) : NoEventLost (initial p) :=
  fun _ => ⟨fun returned => Bool.noConfusion returned, fun replayed => Status.noConfusion replayed⟩

/-- In a run, whatever its interleaving, no event is lost at any point iff every
step that replays pending rows replays rows of delivered events only. -/
theorem no_event_lost_iff (p : Settings) (steps : List Step) :
    Along step ReplaysDelivered (initial p) steps ↔
      ∀ before, before <+: steps → NoEventLost (run step (initial p) before) := by
  have start : NoReplaySends (initial p) ∧ NoEventLost (initial p) :=
    ⟨fun c mem => absurd mem List.not_mem_nil, noEventLost_initial p⟩
  have keeps : ∀ (s : State p) (e : Step), NoReplaySends s ∧ NoEventLost s → ReplaysDelivered s e →
      NoReplaySends (step s e) ∧ NoEventLost (step s e) := fun s e inv delivered =>
    ⟨noReplaySends_step inv.1 e, noEventLost_step inv.1 inv.2 delivered⟩
  exact along_iff_always keeps (fun s inv => inv.2)
    (fun s e inv kept => replaysDelivered_of_noEventLost inv.1 kept) start

/-- The defaults of the service, for receivers that are all fine to call. -/
def defaults : Settings where
  sha256 := utf8Bytes
  maxCapacity := 10000
  maxReplayAttempts := 5
  sha256_injective := utf8Bytes_injective
  maxAttempts := 6
  maxPayloadSizeBytes := 1048576
  hostRateLimitMax := 60
  hostRateLimitWindowMs := 60000
  isSafeUrl := fun _ => true
  hostname := id

def rejected : WebhookPayload := ⟨"evt-1", "https://receiver.example", .obj [("type", .str "paid")], 0, none⟩

/-- An event that the receiver rejects goes to the table. Replaying it reports
success and marks the row, although nothing is ever posted again. -/
theorem replay_loses_event :
    let s := run step (initial defaults)
      [.send rejected 0, .turn 0 1 (.failed (some 400) none), .turn 0 1 .ok, .replay 0 2]
    s.calls = [.sent, .replayed ⟨true, deduplicated⟩] ∧ s.delivered = [] ∧ s.dropped = [] ∧
      rejected.event ∈ s.returned ∧ s.storage.status rejected.event = .replayed ∧ ¬ NoEventLost s := by
  refine ⟨by decide +kernel, by decide +kernel, by decide +kernel, by decide +kernel,
    by decide +kernel, fun kept => ?_⟩
  have posted := (kept rejected.event).replayed (by decide +kernel)
  revert posted
  decide +kernel

end TalentTrust.Webhook
