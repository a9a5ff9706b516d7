import TalentTrust.CircuitBreaker.Breaker
import TalentTrust.Webhook.Signing

/-!
Webhooks of reputation events: `ReputationWebhookService` and the
`WebhookDeliveryService` that it delivers with (`webhookDelivery.ts`).

An event goes to every subscription that matches it. All deliveries share the
breaker of the provider `generic`, since `reputation-webhook` is not one of the
known providers. A delivery waits for the response to its request, or for the
timer before its next attempt, and a `turn` lets it go on; so a run is any
interleaving of deliveries. A delivery that the breaker turns away returns at
once, also when it has made attempts before, and leaves no dead letter.
-/

namespace TalentTrust.Webhook.Reputation

open TalentTrust.Lib TalentTrust.CircuitBreaker

/-! ### Events and subscriptions -/

inductive ReputationEventType where
  | ratingCreated
  deriving DecidableEq, Repr

def ReputationEventType.text : ReputationEventType → String
  | .ratingCreated => "reputation.rating.created"

structure ReputationEventData where
  targetId : String
  reviewerId : String
  rating : Decimal
  contextId : String
  entryId : String
  newScore : Decimal
  totalRatings : Decimal
  weightedScore : Decimal
  scoreAlgorithm : String
  comment : Option String
  deriving DecidableEq

structure ReputationWebhookEvent where
  eventType : ReputationEventType
  eventId : String
  /-- The time of the event as an ISO 8601 text. -/
  timestamp : String
  data : ReputationEventData
  deriving DecidableEq

/-- The members of the event's data; a comment that is `undefined` is not printed. -/
def ReputationEventData.fields (data : ReputationEventData) : List (String × Json) :=
  [("targetId", .str data.targetId), ("reviewerId", .str data.reviewerId),
   ("rating", .num data.rating), ("contextId", .str data.contextId), ("entryId", .str data.entryId),
   ("newScore", .num data.newScore), ("totalRatings", .num data.totalRatings),
   ("weightedScore", .num data.weightedScore), ("scoreAlgorithm", .str data.scoreAlgorithm)] ++
    (data.comment.map fun comment => ("comment", Json.str comment)).toList

def ReputationWebhookEvent.fields (event : ReputationWebhookEvent) : List (String × Json) :=
  [("eventType", .str event.eventType.text), ("eventId", .str event.eventId),
   ("timestamp", .str event.timestamp), ("data", .obj event.data.fields)]

def ReputationWebhookEvent.toJson (event : ReputationWebhookEvent) : Json := .obj event.fields

def sampleEvent : ReputationWebhookEvent where
  eventType := .ratingCreated
  eventId := "e1"
  timestamp := "2026-01-01T00:00:00.000Z"
  data :=
    { targetId := "u1", reviewerId := "u2", rating := .ofNat 5, contextId := "c1", entryId := "r1",
      newScore := .ofNat 5, totalRatings := .ofNat 1, weightedScore := .ofNat 5, scoreAlgorithm := "v1",
      comment := none }

def maxWebhookPayloadSize : Nat := 100 * 1024

@[irreducible] def validatePayloadSize (payload : Json) : Bool :=
  (utf8Bytes (Json.stringify payload)).length ≤ maxWebhookPayloadSize

structure ReputationWebhookSubscription where
  subscriberId : String
  webhookUrl : String
  secret : String
  eventTypes : List ReputationEventType
  targetFilter : Option String
  deriving DecidableEq

/-- The filters of `findMatchingSubscriptions`. -/
def ReputationWebhookSubscription.matches (subscription : ReputationWebhookSubscription)
    (event : ReputationWebhookEvent) : Bool :=
  (subscription.eventTypes = [] || event.eventType ∈ subscription.eventTypes) &&
    (subscription.targetFilter.filter (· ≠ "")).all fun target => event.data.targetId = target

/-- `{ ...event, signature, timestamp }`. -/
def signedBody (event : ReputationWebhookEvent) (signature : WebhookSignature) : Json :=
  .obj (setEntry "timestamp" (.num (Decimal.ofScaled signature.timestamp 0))
    (setEntry "signature" (.str signature.signature) event.fields))

/-! ### Outcomes of requests -/

inductive HttpOutcome where
  | response (statusCode : Nat)
  /-- The request rejects, with the `code` of its error if it has one. -/
  | error (code : Option String)
  deriving DecidableEq

def HttpOutcome.ok : HttpOutcome → Bool
  | .response statusCode => 200 ≤ statusCode && statusCode < 300
  | .error _ => false

/-- The `statusCode` of an outcome, and the error type if the attempt has failed. -/
def HttpOutcome.failure : HttpOutcome → Option Nat × String
  | .response statusCode =>
    (some statusCode, if 500 ≤ statusCode then "5xx_server_error" else "4xx_client_error")
  | .error code => (none, code.getD "unknown")

inductive Status where
  | success
  | failure
  deriving DecidableEq, Repr

inductive FailureReason where
  | timeout
  | clientError
  | serverError
  | dnsResolutionFailure
  | connectionRefused
  | unknown
  deriving DecidableEq, Repr

def getLabelValues (statusCode : Option Nat) (errorType : String) : Status × FailureReason :=
  if errorType = "ECONNREFUSED" then (.failure, .connectionRefused)
  else if errorType = "ENOTFOUND" ∨ errorType = "EAI_AGAIN" then (.failure, .dnsResolutionFailure)
  else if errorType = "ETIMEDOUT" ∨ errorType = "ECONNABORTED" then (.failure, .timeout)
  else match statusCode with
    | none => (.failure, .unknown)
    | some statusCode =>
      if 200 ≤ statusCode ∧ statusCode < 300 then (.success, .unknown)
      else if 400 ≤ statusCode ∧ statusCode < 500 then (.failure, .clientError)
      else if 500 ≤ statusCode then (.failure, .serverError)
      else (.failure, .unknown)

def isRetryableFailure (statusCode : Option Nat) (errorCode : String) : Bool :=
  statusCode.any (500 ≤ ·) ||
    errorCode ∈ ["ECONNRESET", "ETIMEDOUT", "ECONNABORTED", "ENOTFOUND", "EAI_AGAIN", "ECONNREFUSED"]

/-! ### The service -/

/-- The options of the service that its deliveries depend on. -/
structure Options where
  failureThreshold : Option ℚ := none
  successThreshold : Option ℚ := none
  timeoutMs : Option ℚ := none
  maxAttempts : Option ℚ := none

/-- `DEFAULT_RETRY_CONFIG.maxAttempts`, unless one is given. -/
def Options.attempts (options : Options) : ℚ := options.maxAttempts.getD 5

def Options.breaker (options : Options) : CircuitBreaker.Config where
  name := "webhook-generic"
  failureThreshold := options.failureThreshold.getD 5
  successThreshold := options.successThreshold.getD 1
  timeout := options.timeoutMs.getD 60000

structure DeliveryResult where
  success : Bool
  statusCode : Option Nat := none
  circuitOpen : Bool := false
  enqueueToDoLQ : Bool := false
  deriving DecidableEq

/-- Where a call of `deliver` stands. -/
inductive Stage where
  /-- It awaits the outcome of a request. -/
  | requesting
  /-- It awaits the timer before its next attempt. -/
  | sleeping
  | returned (result : DeliveryResult)
  deriving DecidableEq

structure Delivery where
  subscriptionId : String
  url : String
  body : Json
  attemptNumber : Nat
  stage : Stage
  /-- The requests made so far, and the outcomes of those that have settled. -/
  requests : Nat
  outcomes : List HttpOutcome
  deriving DecidableEq

def Delivery.ended (d : Delivery) : Bool :=
  match d.stage with
  | .returned _ => true
  | _ => false

structure DlqEntry where
  providerId : String
  deliveryId : String
  targetUrl : String
  payload : Json
  timestamp : Int
  attemptCount : Nat
  deriving DecidableEq

/-- An entry of the dead letter queue, with the number of the delivery that has pushed it. -/
structure Letter where
  delivery : Nat
  entry : DlqEntry
  deriving DecidableEq

structure State where
  subscriptions : OrderedMap String ReputationWebhookSubscription
  breaker : Breaker
  deliveries : List Delivery
  dlq : List Letter

def State.initial (subscriptions : OrderedMap String ReputationWebhookSubscription) (breaker : Breaker) :
    State :=
  ⟨subscriptions, breaker, [], []⟩

variable (options : Options) (b : Breaker) (d : Delivery)

/-- The loop of `deliver` at an attempt, up to its request. -/
def attempt (n : Nat) (now : Int) : Delivery × Breaker :=
  if (n : ℚ) ≤ options.attempts then
    match b.start options.breaker now with
    | (.error _, b) =>
      ({ d with stage := .returned { success := false, circuitOpen := true } },
        (b.getState options.breaker now).2)
    | (.ok _, b) => ({ d with attemptNumber := n, stage := .requesting, requests := d.requests + 1 }, b)
  else ({ d with stage := .returned { success := false } }, b)

def deliver (now : Int) : Delivery × Breaker :=
  let (state, b) := b.getState options.breaker now
  if state = .opened then ({ d with stage := .returned { success := false, circuitOpen := true } }, b)
  else attempt options b d 1 now

/-- `handleDlqEntry`. -/
def Delivery.letter (deliveryId : String) (now : Int) : DlqEntry where
  providerId := "reputation-webhook"
  deliveryId
  targetUrl := d.url
  payload := d.body
  timestamp := now
  attemptCount := d.attemptNumber

/-- What a delivery does when its request has settled; with the dead letter that it pushes, if
any. -/
def receive (outcome : HttpOutcome) (now : Int)
    (deliveryId : String) : Delivery × Breaker × Option DlqEntry :=
  let b := ((b.finish options.breaker now outcome.ok).getState options.breaker now).2
  let d := { d with outcomes := d.outcomes ++ [outcome] }
  let (statusCode, errorType) := outcome.failure
  if outcome.ok then ({ d with stage := .returned { success := true, statusCode } }, b, none)
  else
    let (status, _) := getLabelValues statusCode errorType
    if status = .failure ∧ isRetryableFailure statusCode errorType = true ∧
        (d.attemptNumber : ℚ) < options.attempts then
      ({ d with stage := .sleeping }, b, none)
    else
      ({ d with stage := .returned { success := false, statusCode, enqueueToDoLQ := true } }, b,
        some (d.letter deliveryId now))

def deliverToSubscription (event : ReputationWebhookEvent) (now : Int) (s : State)
    (target : String × ReputationWebhookSubscription) : State :=
  let signature := createWebhookSignature event.toJson target.2.secret now
  let d : Delivery :=
    { subscriptionId := target.1, url := target.2.webhookUrl, body := signedBody event signature,
      attemptNumber := 0, stage := .requesting, requests := 0, outcomes := [] }
  let (d, b) := deliver options s.breaker d now
  { s with breaker := b, deliveries := s.deliveries ++ [d] }

variable (s : State) (event : ReputationWebhookEvent)

def findMatchingSubscriptions : List (String × ReputationWebhookSubscription) :=
  s.subscriptions.entries.filter fun target => target.2.matches event

/-- The deliveries that `emitEvent` begins; an event that is too large throws. -/
def targets : List (String × ReputationWebhookSubscription) :=
  if validatePayloadSize event.toJson then findMatchingSubscriptions s event else []

inductive Event where
  | addSubscription (subscription : ReputationWebhookSubscription) (uuid : String)
  | removeSubscription (subscriptionId : String)
  | emitEvent (event : ReputationWebhookEvent) (now : Int)
  /-- The delivery with the number `i` goes on: its request settles, or its timer fires. -/
  | turn (i : Nat) (outcome : HttpOutcome) (now : Int) (uuid : String)

def step : Event → State
  | .addSubscription subscription uuid =>
    let id := if subscription.subscriberId = "" then uuid else subscription.subscriberId
    { s with subscriptions := s.subscriptions.set id subscription }
  | .removeSubscription id => { s with subscriptions := s.subscriptions.erase id }
  | .emitEvent event now => (targets s event).foldl (deliverToSubscription options event now) s
  | .turn i outcome now uuid =>
    match s.deliveries[i]? with
    | none => s
    | some d =>
      match d.stage with
      | .requesting =>
        let (d, b, letter) := receive options s.breaker d outcome now uuid
        { s with
          breaker := b
          deliveries := s.deliveries.set i d
          dlq := s.dlq ++ (letter.map (Letter.mk i)).toList }
      | .sleeping =>
        let (d, b) := attempt options s.breaker d (d.attemptNumber + 1) now
        { s with breaker := b, deliveries := s.deliveries.set i d }
      | .returned _ => s

end TalentTrust.Webhook.Reputation
