import TalentTrust.Lib.Calls
import TalentTrust.Lib.Json
import TalentTrust.Lib.OrderedMap

/-!
`api/jobs.ts`: replay of dead-lettered events.

Both endpoints treat an entry alike: they read it, ask the `IdempotencyLayer` whether its
event was delivered, deliver it, remove the entry and mark the event. Each of these is
awaited, so that any number of requests stand somewhere between two of them. The mark is
made after the delivery, and nothing is set when the question is asked: requests that
have all asked before the first of them marks deliver the event each
(`event_delivered_twice`).

An entry is removed only after its event was delivered, in every run
(`removes_delivered`). Events are delivered at most once in runs in which nobody passes
the question while another delivery of the event is under way, and no removal fails
(`replays_deliver_once`).
-/

namespace TalentTrust.Jobs

open TalentTrust.Lib

/-! ### Redaction -/

/-- What the language's own `toLowerCase` does. -/
structure Runtime where
  toLowerCase : String → String

def redacted : Json := .str "[REDACTED]"

def sensitiveKeys : List String :=
  ["secret", "signature", "token", "accesstoken", "authtoken", "apikey", "privatekey", "key",
    "password", "authorization", "nonce", "cookie"]

def isSensitiveKey (rt : Runtime) (key : String) : Bool :=
  sensitiveKeys.contains
    (String.ofList ((rt.toLowerCase key).toList.filter fun c => !(c = '-' || c = '_')))

mutual

def redactPayload (rt : Runtime) : Json → Json
  | .arr items => .arr (redactItems rt items)
  | .obj fields => .obj (redactFields rt fields)
  | payload => payload

def redactItems (rt : Runtime) : List Json → List Json
  | [] => []
  | item :: items => redactPayload rt item :: redactItems rt items

def redactFields (rt : Runtime) : List (String × Json) → List (String × Json)
  | [] => []
  | (key, value) :: fields =>
    (key, if isSensitiveKey rt key then redacted else redactPayload rt value) ::
      redactFields rt fields

end

/-! ### What the requests share -/

structure ReplayableDlqItem where
  id : String
  eventId : String
  targetUrl : String
  payload : Json
  deriving DecidableEq

/-- A store behind `ReplayableDlqStore`. -/
structure DlqStore where
  entries : OrderedMap String ReplayableDlqItem
  replayAttempts : OrderedMap String Nat

namespace DlqStore

variable (store : DlqStore) (id : String)

def getEntryById : Option ReplayableDlqItem := store.entries.get? id

def removeEntry : DlqStore :=
  { store with entries := store.entries.erase id }

def incrementReplayAttempts : DlqStore :=
  { store with replayAttempts := store.replayAttempts.set id ((store.replayAttempts.get? id).getD 0 + 1) }

end DlqStore

inductive ReplayMetric where
  | success
  | failed
  | idempotentNoop
  | error
  deriving DecidableEq

/-- A delivery that was answered with a 2xx status. -/
structure Delivery where
  targetUrl : String
  eventId : String
  payload : Json
  deriving DecidableEq

inductive Record where
  | delivered (delivery : Delivery)
  | removed (item : ReplayableDlqItem)
  deriving DecidableEq

/-- The module's state, with the events that the `IdempotencyLayer` holds as processed, and
the history of deliveries and removals. -/
structure Shared where
  initialized : Bool
  store : DlqStore
  processed : List String
  metrics : List ReplayMetric
  history : List Record

namespace Shared

def count (s : Shared) (metric : ReplayMetric) : Shared := { s with metrics := s.metrics ++ [metric] }

def removeEntry (s : Shared) (id : String) : Shared :=
  { s with
    store := s.store.removeEntry id
    history := s.history ++ (s.store.getEntryById id).toList.map .removed }

def markEventProcessed (s : Shared) (eventId : String) : Shared :=
  { s with processed := eventId :: s.processed }

end Shared

/-! ### Requests -/

/-- `res.status(..).json(..)`, or `next(error)`. -/
inductive Reply where
  | json (status : Nat) (body : Json)
  | next (error : String)
  deriving DecidableEq

structure Summary where
  successCount : Nat
  noOpCount : Nat
  failureCount : Nat
  deriving DecidableEq

/-- The endpoint, with what the loop of the batch has still to visit. -/
inductive Request where
  | single (reason : String)
  | batch (reason : String) (rest : List String) (summary : Summary)
  deriving DecidableEq

/-- What is awaited for an entry that has been read. -/
inductive Phase where
  | checking
  | delivering
  | removing
  | marking
  | counting
  deriving DecidableEq

inductive Stage where
  | fetching (id : String)
  | handling (id : String) (item : ReplayableDlqItem) (phase : Phase)
  deriving DecidableEq

inductive Pending where
  | waiting (request : Request) (stage : Stage)
  | answered (reply : Reply)
  deriving DecidableEq

inductive Outcome where
  | missing
  | duplicate
  | delivered
  | failed
  | threw (error : String)

def errorBody (message : String) : Json := .obj [("error", .str message)]

def natJson (n : Nat) : Json := .num (Decimal.ofNat n)

def Summary.json (summary : Summary) : Json :=
  .obj [("successCount", natJson summary.successCount), ("noOpCount", natJson summary.noOpCount),
    ("failureCount", natJson summary.failureCount)]

/-- The batch goes on to the next id. -/
def nextInBatch (reason : String) (summary : Summary) : List String → Pending
  | [] =>
    .answered (.json 200 (.obj [("status", .str "batch_completed"), ("auditReason", .str reason),
      ("details", summary.json)]))
  | id :: rest => .waiting (.batch reason rest summary) (.fetching id)

/-- The entry has been treated: the request is answered, or the batch goes on. -/
def settle (s : Shared) : Request → Outcome → Shared × Pending
  | .single _, .missing => (s, .answered (.json 404 (errorBody "DLQ item not found")))
  | .single _, .duplicate =>
    (s.count .idempotentNoop, .answered (.json 200 (.obj [("status", .str "ignored"),
      ("reason", .str "Idempotent no-op: Event already delivered")])))
  | .single reason, .delivered =>
    (s.count .success, .answered (.json 200 (.obj [("status", .str "success"),
      ("message", .str "DLQ record replayed and processed"), ("auditReason", .str reason)])))
  | .single _, .failed =>
    (s.count .failed, .answered (.json 500 (.obj [("status", .str "failed"),
      ("error", .str "Delivery transmission failed during retry execution")])))
  | .single _, .threw error => (s.count .error, .answered (.next error))
  | .batch reason rest summary, .missing =>
    (s, nextInBatch reason { summary with failureCount := summary.failureCount + 1 } rest)
  | .batch reason rest summary, .duplicate =>
    (s.count .idempotentNoop,
      nextInBatch reason { summary with noOpCount := summary.noOpCount + 1 } rest)
  | .batch reason rest summary, .delivered =>
    (s.count .success,
      nextInBatch reason { summary with successCount := summary.successCount + 1 } rest)
  | .batch reason rest summary, .failed =>
    (s.count .failed,
      nextInBatch reason { summary with failureCount := summary.failureCount + 1 } rest)
  | .batch _ _ _, .threw error => (s, .answered (.next error))

/-- What an awaited call comes back with: a rejection of a store call, or the status of a
delivery, if there was a response. -/
structure Answer where
  rejects : Option String
  status : Option Nat
  deriving DecidableEq

/-- What `deliverRaw` makes of the response. -/
def succeeded (status : Option Nat) : Bool :=
  match status with
  | none => false
  | some status => 200 ≤ status && status < 300

section Turns

variable (rt : Runtime)

def ReplayableDlqItem.delivery (item : ReplayableDlqItem) : Delivery :=
  ⟨item.targetUrl, item.eventId, redactPayload rt item.payload⟩

def turnEntry (answer : Answer) (s : Shared) (request : Request) (id : String)
    (item : ReplayableDlqItem) : Phase → Shared × Pending
  | .checking =>
    if item.eventId ∈ s.processed then settle s request .duplicate
    else (s, .waiting request (.handling id item .delivering))
  | .delivering =>
    if succeeded answer.status then
      ({ s with history := s.history ++ [.delivered (item.delivery rt)] },
        .waiting request (.handling id item .removing))
    else (s, .waiting request (.handling id item .counting))
  | .removing =>
    match answer.rejects with
    | some error => settle s request (.threw error)
    | none => (s.removeEntry id, .waiting request (.handling id item .marking))
  | .marking => settle (s.markEventProcessed item.eventId) request .delivered
  | .counting =>
    match answer.rejects with
    | some error => settle s request (.threw error)
    | none => settle { s with store := s.store.incrementReplayAttempts id } request .failed

def turn (answer : Answer) (s : Shared) : Pending → Shared × Pending
  | .waiting request (.fetching id) =>
    match answer.rejects with
    | some error => settle s request (.threw error)
    | none =>
      match s.store.getEntryById id with
      | none => settle s request .missing
      | some item => (s, .waiting request (.handling id item .checking))
  | .waiting request (.handling id item phase) => turnEntry rt answer s request id item phase
  | .answered reply => (s, .answered reply)

/-- `typeof req.body?.reason === 'string' ? req.body.reason : ''`. -/
def readReason (body : Json) : String :=
  match body.get? "reason" with
  | some (.str reason) => reason
  | _ => ""

/-- `ids` as a nonempty array of strings. -/
def readIds (body : Json) : Option (List String) :=
  match body.get? "ids" with
  | some (.arr (item :: items)) => (item :: items).mapM fun
      | .str id => some id
      | _ => none
  | _ => none

def reasonTooShort : Reply :=
  .json 400 (errorBody "Audit trail reason must be at least 5 characters long")

def notInitialized : Reply := .json 503 (errorBody "DLQ store is not initialized")

/-- `POST /jobs/dlq/:id/replay` up to its first await. -/
def replay (id : String) (body : Json) (s : Shared) : Pending :=
  if id = "" then .answered (.json 400 (errorBody "Invalid DLQ record ID"))
  else if jsLength (readReason body) < 5 then .answered reasonTooShort
  else if s.initialized then .waiting (.single (readReason body)) (.fetching id)
  else .answered notInitialized

/-- `POST /jobs/dlq/replay` up to its first await. -/
def replayBatch (body : Json) (s : Shared) : Pending :=
  match readIds body with
  | none => .answered (.json 400 (errorBody "An array of valid IDs is required"))
  | some ids =>
    if jsLength (readReason body) < 5 then .answered reasonTooShort
    else if s.initialized then nextInBatch (readReason body) ⟨0, 0, 0⟩ ids
    else .answered notInitialized

/-! ### Runs -/

inductive Event where
  | replay (id : String) (body : Json)
  | replayBatch (body : Json)
  | turn (i : Nat) (answer : Answer)

abbrev State := Shared × List Pending

def step (s : State) : Event → State
  | .replay id body => (s.1, s.2 ++ [replay id body s.1])
  | .replayBatch body => (s.1, s.2 ++ [replayBatch body s.1])
  | .turn i answer => resumeAt (turn rt answer) i s

/-- No request is under way; some events may have been marked before. -/
def begin (initialized : Bool) (store : DlqStore) (processed : List String) : State :=
  (⟨initialized, store, processed, [], []⟩, [])

/-! ### What is asked of a run -/

variable (history : List Record)

def deliveries : List String :=
  history.filterMap fun
    | .delivered delivery => some delivery.eventId
    | .removed _ => none

def DeliversOnce : Prop := (deliveries history).Nodup

/-- An entry is removed only after its event was delivered. -/
def RemovesDelivered : Prop :=
  ∀ before item after, history = before ++ .removed item :: after → item.eventId ∈ deliveries before

/-- The entry that a request handles. -/
structure Handled where
  id : String
  item : ReplayableDlqItem
  phase : Phase
  deriving DecidableEq

def Pending.handled : Pending → Option Handled
  | .waiting _ (.handling id item phase) => some ⟨id, item, phase⟩
  | _ => none

/-- The event was found unprocessed and is not yet marked, nor has its delivery failed. -/
def Phase.underWay : Phase → Bool
  | .delivering | .removing | .marking => true
  | .checking | .counting => false

/-- Whoever finds an event unprocessed is the only request that delivers it, and an entry
whose event was delivered is removed without an error. -/
def Undisturbed (s : State) : Event → Prop
  | .turn i answer =>
    ∀ call ∈ s.2[i]?, ∀ h ∈ call.handled,
      (h.phase = .checking → h.item.eventId ∉ s.1.processed →
        ∀ other ∈ s.2, ∀ o ∈ other.handled, o.phase.underWay = true → o.item.eventId ≠ h.item.eventId) ∧
      (h.phase = .removing → answer.rejects = none)
  | .replay _ _ | .replayBatch _ => True

instance (s : State) : ∀ event, Decidable (Undisturbed s event)
  | .turn i _ =>
    inferInstanceAs (Decidable (∀ call ∈ s.2[i]?, ∀ h ∈ call.handled,
      (_ → _ → ∀ other ∈ s.2, ∀ o ∈ other.handled, _) ∧ (_ → _)))
  | .replay _ _ | .replayBatch _ => isTrue trivial

/-! ### What a turn does -/

/-- What the properties read. -/
structure View where
  entries : OrderedMap String ReplayableDlqItem
  processed : List String
  history : List Record

def Shared.view (s : Shared) : View := ⟨s.store.entries, s.processed, s.history⟩

/-- A turn of a request that handles the entry on the left, and what it then handles. -/
inductive Turned (answer : Answer) (v : View) : Option Handled → View → Option Handled → Prop where
  /-- The entry was not found, is processed, was not delivered, or a store call was rejected. -/
  | left {h : Option Handled}
      (kept : ∀ g ∈ h, g.phase ≠ .marking ∧ (g.phase = .removing → answer.rejects ≠ none)) :
      Turned answer v h v none
  | read {id : String} {item : ReplayableDlqItem} (found : v.entries.get? id = some item) :
      Turned answer v none v (some ⟨id, item, .checking⟩)
  | passed {id : String} {item : ReplayableDlqItem} (unprocessed : item.eventId ∉ v.processed) :
      Turned answer v (some ⟨id, item, .checking⟩) v (some ⟨id, item, .delivering⟩)
  | delivered {id : String} {item : ReplayableDlqItem} :
      Turned answer v (some ⟨id, item, .delivering⟩)
        { v with history := v.history ++ [.delivered (item.delivery rt)] } (some ⟨id, item, .removing⟩)
  | refused {id : String} {item : ReplayableDlqItem} :
      Turned answer v (some ⟨id, item, .delivering⟩) v (some ⟨id, item, .counting⟩)
  | removed {id : String} {item : ReplayableDlqItem} :
      Turned answer v (some ⟨id, item, .removing⟩)
        { v with
          entries := v.entries.erase id
          history := v.history ++ (v.entries.get? id).toList.map .removed }
        (some ⟨id, item, .marking⟩)
  | marked {id : String} {item : ReplayableDlqItem} :
      Turned answer v (some ⟨id, item, .marking⟩)
        { v with processed := item.eventId :: v.processed } none

theorem settle_view (s : Shared) (request : Request) (outcome : Outcome) :
    (settle s request outcome).1.view = s.view ∧ (settle s request outcome).2.handled = none := by
  have next : ∀ reason summary rest, (nextInBatch reason summary rest).handled = none := by
    intro reason summary rest
    cases rest <;> rfl
  cases request with
  | single reason => cases outcome <;> exact ⟨rfl, rfl⟩
  | batch reason rest summary =>
    cases outcome with
    | threw error => exact ⟨rfl, rfl⟩
    | _ => exact ⟨rfl, next _ _ rest⟩

variable {rt} in
theorem turned_settle {answer : Answer} {s s' : Shared} {h : Option Handled} (request : Request)
    (outcome : Outcome) (turned : Turned rt answer s.view h s'.view none) :
    Turned rt answer s.view h (settle s' request outcome).1.view (settle s' request outcome).2.handled := by
  obtain ⟨same, none⟩ := settle_view s' request outcome
  rwa [same, none]

theorem turned_turn (answer : Answer) (s : Shared) (call : Pending) :
    Turned rt answer s.view call.handled (turn rt answer s call).1.view
      (turn rt answer s call).2.handled := by
  cases call with
  | answered reply => exact .left nofun
  | waiting request stage =>
    cases stage with
    | fetching id =>
      simp only [turn]
      split
      · exact turned_settle request _ (.left nofun)
      · split
        · exact turned_settle request _ (.left nofun)
        · rename_i item found
          exact .read found
    | handling id item phase =>
      cases phase with
      | checking =>
        simp only [turn, turnEntry]
        split
        · refine turned_settle request _ (.left ?_)
          rintro g ⟨⟩
          exact ⟨nofun, nofun⟩
        · rename_i unprocessed
          exact .passed unprocessed
      | delivering =>
        simp only [turn, turnEntry]
        split
        · exact .delivered
        · exact .refused
      | removing =>
        simp only [turn, turnEntry]
        split
        · rename_i error rejected
          refine turned_settle request _ (.left ?_)
          rintro g ⟨⟩
          exact ⟨nofun, fun _ resolved => by rw [resolved] at rejected; cases rejected⟩
        · exact .removed
      | marking => exact turned_settle request .delivered .marked
      | counting =>
        have left : Turned rt answer s.view (some ⟨id, item, .counting⟩) s.view none := by
          refine .left ?_
          rintro g ⟨⟩
          exact ⟨nofun, nofun⟩
        simp only [turn, turnEntry]
        split
        · exact turned_settle request _ left
        · exact turned_settle request _ left

/-- What the request at a position handles. -/
def handledAt (s : State) (i : Nat) : Option Handled := s.2[i]?.bind Pending.handled

theorem handledAt_start (s : State) {call : Pending} (new : call.handled = none) :
    handledAt (s.1, s.2 ++ [call]) = handledAt s := by
  funext i
  unfold handledAt
  rcases Nat.lt_trichotomy i s.2.length with below | rfl | above
  · rw [List.getElem?_append_left below]
  · rw [List.getElem?_append_right le_rfl, Nat.sub_self, List.getElem?_eq_none le_rfl]
    exact new
  · rw [List.getElem?_eq_none (by simpa using above), List.getElem?_eq_none (by omega)]

theorem step_cases (s : State) (event : Event) :
    ((step rt s event).1.view = s.1.view ∧ handledAt (step rt s event) = handledAt s) ∨
      ∃ i answer, event = .turn i answer ∧
        Turned rt answer s.1.view (handledAt s i) (step rt s event).1.view
          (handledAt (step rt s event) i) ∧
        ∀ j, j ≠ i → handledAt (step rt s event) j = handledAt s j := by
  cases event with
  | replay id body =>
    refine .inl ⟨rfl, handledAt_start s ?_⟩
    unfold replay
    split <;> [rfl; split <;> [rfl; split <;> rfl]]
  | replayBatch body =>
    refine .inl ⟨rfl, handledAt_start s ?_⟩
    unfold replayBatch
    split
    · rfl
    · rename_i ids _
      split <;> [rfl; split <;> [(cases ids <;> rfl); rfl]]
  | turn i answer =>
    cases found : s.2[i]? with
    | none => exact .inl (by simp [step, resumeAt_of_none found])
    | some call =>
      refine .inr ⟨i, answer, rfl, ?_, ?_⟩
      · have before : handledAt s i = call.handled := by
          rw [handledAt, found]
          rfl
        have here : handledAt (step rt s (.turn i answer)) i = (turn rt answer s.1 call).2.handled := by
          unfold handledAt step
          rw [getElem?_resumeAt_self found]
          rfl
        rw [before, here]
        simp only [step, resumeAt_of_some found]
        exact turned_turn rt answer s.1 call
      · intro j other
        simp [handledAt, step, resumeAt_of_some found, List.getElem?_set_ne (Ne.symm other)]

/-! ### Removals -/

theorem deliveries_append (history records : List Record) :
    deliveries (history ++ records) = deliveries history ++ deliveries records :=
  List.filterMap_append

theorem RemovesDelivered.concat {history : List Record} (ordered : RemovesDelivered history)
    {record : Record} (new : ∀ item, record = .removed item → item.eventId ∈ deliveries history) :
    RemovesDelivered (history ++ [record]) := by
  intro before item after same
  rcases List.eq_nil_or_concat' after with rfl | ⟨rest, last, rfl⟩
  · obtain ⟨rfl, here⟩ := List.append_inj' same rfl
    exact new item (List.singleton_injective here)
  · rw [← List.cons_append, ← List.append_assoc] at same
    exact ordered before item rest (List.append_inj' same rfl).1

/-- The event was delivered and is not yet marked. -/
def Phase.carries : Phase → Bool
  | .removing | .marking => true
  | .checking | .delivering | .counting => false

section Invariants

variable {rt} {v v' : View} {f f' : Nat → Option Handled} {i : Nat} {answer : Answer}

variable (v f) in
/-- What a request has read is the entry that is still stored, and it removes entries whose
event it has delivered. -/
structure Orderly : Prop where
  entry : ∀ i, ∀ h ∈ f i, ∀ item ∈ v.entries.get? h.id, item = h.item
  carried : ∀ i, ∀ h ∈ f i, h.phase.carries = true → h.item.eventId ∈ deliveries v.history
  ordered : RemovesDelivered v.history

section

variable {h h' : Option Handled} (turned : Turned rt answer v h v' h')

include turned

/-- Entries are only removed, and deliveries only added. -/
theorem Turned.frame :
    (∀ id, ∀ item ∈ v'.entries.get? id, item ∈ v.entries.get? id) ∧
      ∀ eventId ∈ deliveries v.history, eventId ∈ deliveries v'.history := by
  cases turned with
  | delivered =>
    refine ⟨fun _ _ found => found, fun eventId mem => ?_⟩
    rw [deliveries_append]
    exact List.mem_append_left _ mem
  | removed =>
    refine ⟨fun _ _ found => OrderedMap.get?_of_erase found, fun eventId mem => ?_⟩
    rw [deliveries_append]
    exact List.mem_append_left _ mem
  | _ => exact ⟨fun _ _ found => found, fun _ mem => mem⟩

theorem Turned.entry
    (old : ∀ g ∈ h, ∀ item ∈ v.entries.get? g.id, item = g.item) :
    ∀ g ∈ h', ∀ item ∈ v'.entries.get? g.id, item = g.item := by
  cases turned with
  | left => nofun
  | read found =>
    rintro g ⟨⟩ item stored
    exact Option.some.inj (stored.symm.trans found)
  | removed =>
    rintro g ⟨⟩ item stored
    exact old _ rfl item (OrderedMap.get?_of_erase stored)
  | marked => nofun
  | _ =>
    have same := old _ rfl
    rintro g ⟨⟩
    exact same

theorem Turned.carried
    (old : ∀ g ∈ h, g.phase.carries = true → g.item.eventId ∈ deliveries v.history) :
    ∀ g ∈ h', g.phase.carries = true → g.item.eventId ∈ deliveries v'.history := by
  cases turned with
  | left => nofun
  | delivered =>
    rintro g ⟨⟩ _
    rw [deliveries_append]
    exact List.mem_append_right _ List.mem_cons_self
  | removed =>
    have before := old _ rfl rfl
    rintro g ⟨⟩ _
    rw [deliveries_append]
    exact List.mem_append_left _ before
  | marked => nofun
  | _ =>
    rintro g ⟨⟩ carries
    cases carries

omit turned in
theorem Phase.underWay_of_carries {phase : Phase} (carries : phase.carries = true) :
    phase.underWay = true := by
  cases phase <;> first | rfl | cases carries

/-- A request that delivers an event did so before, or has just found it unprocessed. -/
theorem Turned.underWay :
    ∀ g ∈ h', g.phase.underWay = true → ∃ g₀ ∈ h, g₀.item = g.item ∧
      (g₀.phase.underWay = true ∨ g₀.phase = .checking ∧ g₀.item.eventId ∉ v.processed) := by
  cases turned with
  | left | marked => nofun
  | passed unprocessed =>
    rintro g ⟨⟩ _
    exact ⟨_, rfl, rfl, .inr ⟨rfl, unprocessed⟩⟩
  | delivered | removed =>
    rintro g ⟨⟩ _
    exact ⟨_, rfl, rfl, .inl rfl⟩
  | _ =>
    rintro g ⟨⟩ under_way
    cases under_way

theorem Turned.processed :
    (∀ eventId ∈ v.processed, eventId ∈ v'.processed) ∧
      ∀ eventId ∈ v'.processed, eventId ∈ v.processed ∨
        h' = none ∧ ∃ g ∈ h, g.phase.underWay = true ∧ g.item.eventId = eventId := by
  cases turned with
  | marked =>
    refine ⟨fun _ mem => List.mem_cons_of_mem _ mem, ?_⟩
    intro eventId mem
    rcases List.mem_cons.mp mem with rfl | old
    · exact .inr ⟨rfl, _, rfl, rfl, rfl⟩
    · exact .inl old
  | _ => exact ⟨fun _ mem => mem, fun _ mem => .inl mem⟩

theorem Turned.accounted
    (removes : ∀ g ∈ h, g.phase = .removing → answer.rejects = none) :
    ∀ g ∈ h, g.phase.carries = true → g.item.eventId ∈ v'.processed ∨
      ∃ g' ∈ h', g'.phase.carries = true ∧ g'.item.eventId = g.item.eventId := by
  cases turned with
  | left kept =>
    intro g handles carries
    obtain ⟨unmarked, rejected⟩ := kept g handles
    cases phase : g.phase with
    | removing => exact absurd (removes g handles phase) (rejected phase)
    | marking => exact absurd phase unmarked
    | _ =>
      rw [phase] at carries
      cases carries
  | removed =>
    rintro g ⟨⟩ _
    exact .inr ⟨_, rfl, rfl, rfl⟩
  | marked =>
    rintro g ⟨⟩ _
    exact .inl List.mem_cons_self
  | read => nofun
  | _ =>
    rintro g ⟨⟩ carries
    cases carries

theorem Turned.deliveries :
    deliveries v'.history = deliveries v.history ∨
      ∃ g ∈ h, ∃ g' ∈ h', g.phase = .delivering ∧ g'.phase.carries = true ∧
        g'.item.eventId = g.item.eventId ∧
        deliveries v'.history = deliveries v.history ++ [g.item.eventId] := by
  cases turned with
  | delivered =>
    refine .inr ⟨_, rfl, _, rfl, rfl, rfl, rfl, ?_⟩
    rw [deliveries_append]
    rfl
  | removed =>
    left
    rename_i id item
    rw [deliveries_append]
    cases v.entries.get? id <;> simp [Jobs.deliveries]
  | _ => exact .inl rfl

end

theorem Orderly.turned (orderly : Orderly v f) (turned : Turned rt answer v (f i) v' (f' i))
    (others : ∀ j, j ≠ i → f' j = f j) : Orderly v' f' := by
  obtain ⟨fewer, more⟩ := turned.frame
  refine ⟨?_, ?_, ?_⟩
  · intro j h handles item found
    by_cases here : j = i
    · subst here
      exact turned.entry (orderly.entry j) h handles item found
    · rw [others j here] at handles
      exact orderly.entry j h handles item (fewer _ item found)
  · intro j h handles carries
    by_cases here : j = i
    · subst here
      exact turned.carried (orderly.carried j) h handles carries
    · rw [others j here] at handles
      exact more _ (orderly.carried j h handles carries)
  · have entry := orderly.entry i
    have carried := orderly.carried i
    generalize f i = h at turned entry carried
    generalize f' i = h' at turned
    cases turned with
    | delivered => exact orderly.ordered.concat nofun
    | removed =>
      rename_i id item
      cases stored : v.entries.get? id with
      | none => simpa [stored] using orderly.ordered
      | some kept =>
        refine orderly.ordered.concat ?_
        rintro other ⟨⟩
        rw [entry _ rfl kept stored]
        exact carried _ rfl rfl
    | _ => exact orderly.ordered

variable (v f) in
/-- While an event is being delivered no other request delivers it and it is not marked, and an
event that was delivered is marked or about to be. -/
structure Single : Prop where
  alone : ∀ i j, ∀ g ∈ f i, ∀ h ∈ f j, g.phase.underWay = true → h.phase.underWay = true →
    g.item.eventId = h.item.eventId → i = j
  unprocessed : ∀ i, ∀ h ∈ f i, h.phase.underWay = true → h.item.eventId ∉ v.processed
  accounted : ∀ eventId ∈ deliveries v.history, eventId ∈ v.processed ∨
    ∃ i, ∃ h ∈ f i, h.phase.carries = true ∧ h.item.eventId = eventId
  once : DeliversOnce v.history

/-- Nobody else delivers the event that a request is about to find unprocessed, and a removal
succeeds. -/
def Clear (answer : Answer) (v : View) (f : Nat → Option Handled) (i : Nat) : Prop :=
  ∀ h ∈ f i,
    (h.phase = .checking → h.item.eventId ∉ v.processed → ∀ j, ∀ o ∈ f j, o.phase.underWay = true →
      o.item.eventId ≠ h.item.eventId) ∧
    (h.phase = .removing → answer.rejects = none)

/-- An event that a request is about to deliver has not been delivered. -/
theorem Single.undelivered (single : Single v f) {g : Handled} (handles : g ∈ f i)
    (delivering : g.phase = .delivering) : g.item.eventId ∉ deliveries v.history := by
  intro mem
  have under_way : g.phase.underWay = true := by rw [delivering]; rfl
  rcases single.accounted _ mem with marked | ⟨j, h, handles', carries, same⟩
  · exact single.unprocessed i g handles under_way marked
  · -- The request that carries the event would be this one, which is still delivering it.
    have here : j = i :=
      single.alone j i h handles' g handles (Phase.underWay_of_carries carries) under_way same
    rw [here] at handles'
    cases Option.some.inj (handles.symm.trans handles')
    rw [delivering] at carries
    cases carries

theorem Single.turned (single : Single v f) (turned : Turned rt answer v (f i) v' (f' i))
    (others : ∀ j, j ≠ i → f' j = f j) (clear : Clear answer v f i) : Single v' f' := by
  -- Only the request that takes its turn can come to deliver an event, and nobody else does.
  have unshared : ∀ j, j ≠ i → ∀ g ∈ f' i, ∀ h ∈ f j, g.phase.underWay = true →
      h.phase.underWay = true → g.item.eventId ≠ h.item.eventId := by
    intro j other g handles h handles' under_way under_way' same
    obtain ⟨g₀, before, item, under_way₀ | ⟨asks, unprocessed⟩⟩ := turned.underWay g handles under_way
    · exact other (single.alone i j g₀ before h handles' under_way₀ under_way' (item ▸ same)).symm
    · exact (clear g₀ before).1 asks unprocessed j h handles' under_way' (item ▸ same.symm)
  -- What was delivered before is marked, or still with the request that delivered it.
  have accounted : ∀ eventId ∈ deliveries v.history, eventId ∈ v'.processed ∨
      ∃ j, ∃ h ∈ f' j, h.phase.carries = true ∧ h.item.eventId = eventId := by
    intro eventId mem
    rcases single.accounted eventId mem with marked | ⟨j, h, handles, carries, rfl⟩
    · exact .inl (turned.processed.1 eventId marked)
    · by_cases here : j = i
      · subst here
        exact (turned.accounted (fun g handled => (clear g handled).2) h handles carries).imp id
          fun still => ⟨j, still⟩
      · exact .inr ⟨j, h, by rwa [others j here], carries, rfl⟩
  refine ⟨?_, ?_, ?_, ?_⟩
  · intro j k g handles h handles' under_way under_way' same
    by_cases first : j = i <;> by_cases second : k = i
    · rw [first, second]
    · rw [first] at handles
      rw [others k second] at handles'
      exact absurd same (unshared k second g handles h handles' under_way under_way')
    · rw [others j first] at handles
      rw [second] at handles'
      exact absurd same.symm (unshared j first h handles' g handles under_way' under_way)
    · rw [others j first] at handles
      rw [others k second] at handles'
      exact single.alone j k g handles h handles' under_way under_way' same
  · intro j h handles under_way marked
    rcases turned.processed.2 _ marked with before | ⟨gone, g, handled, under_way', same⟩
    · by_cases here : j = i
      · subst here
        obtain ⟨g₀, earlier, item, under_way₀ | ⟨_, unprocessed⟩⟩ := turned.underWay h handles under_way
        · exact single.unprocessed j g₀ earlier under_way₀ (item ▸ before)
        · exact unprocessed (item ▸ before)
      · rw [others j here] at handles
        exact single.unprocessed j h handles under_way before
    · by_cases here : j = i
      · rw [here, gone] at handles
        cases handles
      · rw [others j here] at handles
        exact here (single.alone j i h handles g handled under_way under_way' same.symm)
  · intro eventId mem
    rcases turned.deliveries with same | ⟨g, _, g', handles', _, carries, event, grown⟩
    · exact accounted eventId (same ▸ mem)
    · rw [grown] at mem
      rcases List.mem_append.mp mem with old | new
      · exact accounted eventId old
      · cases List.mem_singleton.mp new
        exact .inr ⟨i, g', handles', carries, event⟩
  · rcases turned.deliveries with same | ⟨g, handles, _, _, delivering, _, _, grown⟩
    · unfold DeliversOnce
      rw [same]
      exact single.once
    · unfold DeliversOnce
      rw [grown]
      refine List.nodup_append.mpr ⟨single.once, List.nodup_singleton _, ?_⟩
      rintro eventId mem _ new rfl
      cases List.mem_singleton.mp new
      exact single.undelivered handles delivering mem

end Invariants

theorem Undisturbed.clear {s : State} {i : Nat} {answer : Answer}
    (undisturbed : Undisturbed s (.turn i answer)) : Clear answer s.1.view (handledAt s) i := by
  intro h handles
  obtain ⟨call, found, handled⟩ := Option.bind_eq_some_iff.mp handles
  obtain ⟨asks, removes⟩ := undisturbed call found h handled
  refine ⟨fun asking unprocessed j o handles' => ?_, removes⟩
  obtain ⟨other, found', handled'⟩ := Option.bind_eq_some_iff.mp handles'
  exact asks asking unprocessed other (List.mem_of_getElem? found') o handled'

/-- In every run an entry is removed only after its event was delivered. -/
theorem removes_delivered (initialized : Bool) (store : DlqStore) (processed : List String)
    (events : List Event) :
    RemovesDelivered (run (step rt) (begin initialized store processed) events).1.history := by
  have keeps : ∀ s event, Orderly s.1.view (handledAt s) →
      Orderly (step rt s event).1.view (handledAt (step rt s event)) := by
    intro s event orderly
    rcases step_cases rt s event with ⟨same, same'⟩ | ⟨i, answer, rfl, turned, others⟩
    · rwa [same, same']
    · exact orderly.turned turned others
  have start : Orderly (begin initialized store processed).1.view
      (handledAt (begin initialized store processed)) := by
    refine ⟨?_, ?_, ?_⟩
    · intro i h handles
      simp [handledAt, begin] at handles
    · intro i h handles
      simp [handledAt, begin] at handles
    · intro before item after same
      simp [begin, Shared.view] at same
  exact (run_invariant keeps start events).ordered

/-- However single and batch replays interleave: as long as whoever finds an event unprocessed is
the only request that delivers it, and delivered entries are removed without an error, every
event is delivered at most once, and entries are removed only after their event was delivered. -/
theorem replays_deliver_once (initialized : Bool) (store : DlqStore) (processed : List String)
    {events : List Event}
    (undisturbed : Along (step rt) Undisturbed (begin initialized store processed) events) :
    ∀ initial, initial <+: events →
      DeliversOnce (run (step rt) (begin initialized store processed) initial).1.history ∧
        RemovesDelivered (run (step rt) (begin initialized store processed) initial).1.history := by
  intro initial part
  have keeps : ∀ s event, Single s.1.view (handledAt s) → Undisturbed s event →
      Single (step rt s event).1.view (handledAt (step rt s event)) := by
    intro s event single undisturbed
    rcases step_cases rt s event with ⟨same, same'⟩ | ⟨i, answer, rfl, turned, others⟩
    · rwa [same, same']
    · exact single.turned turned others undisturbed.clear
  have start : Single (begin initialized store processed).1.view
      (handledAt (begin initialized store processed)) := by
    refine ⟨?_, ?_, ?_, List.nodup_nil⟩
    · intro i j g handles
      simp [handledAt, begin] at handles
    · intro i h handles
      simp [handledAt, begin] at handles
    · intro eventId mem
      cases mem
  exact ⟨((undisturbed.of_prefix part).invariant keeps start).once,
    removes_delivered rt initialized store processed initial⟩

end Turns

/-! ### Two requests for one entry -/

def plainRuntime : Runtime := ⟨id⟩

def sampleItem : ReplayableDlqItem := ⟨"dlq-1", "evt-1", "url", .obj []⟩

def sampleStore : DlqStore := ⟨OrderedMap.empty.set "dlq-1" sampleItem, .empty⟩

def sampleBody : Json := .obj [("reason", .str "retry")]

/-- The await at position `i` comes back; a delivery with status 200. -/
def answered (i : Nat) : Event := .turn i ⟨none, some 200⟩

/-- Both requests ask whether the event is processed before either of them delivers it. -/
def overlapping : List Event :=
  [.replay "dlq-1" sampleBody, .replay "dlq-1" sampleBody, answered 0, answered 1, answered 0, answered 1,
    answered 0, answered 1]

theorem event_delivered_twice :
    ¬ DeliversOnce (run (step plainRuntime) (begin true sampleStore []) overlapping).1.history := by
  unfold DeliversOnce
  decide +kernel

/-- The second request asks when the first has marked the event. -/
def oneAfterAnother : List Event :=
  [.replay "dlq-1" sampleBody, .replay "dlq-1" sampleBody, answered 1] ++ List.replicate 5 (answered 0) ++
    List.replicate 2 (answered 1)

theorem event_delivered_once :
    DeliversOnce (run (step plainRuntime) (begin true sampleStore []) oneAfterAnother).1.history ∧
      RemovesDelivered (run (step plainRuntime) (begin true sampleStore []) oneAfterAnother).1.history :=
  replays_deliver_once plainRuntime true sampleStore [] (by decide +kernel) _ List.prefix_rfl

end TalentTrust.Jobs
