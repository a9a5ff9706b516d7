import TalentTrust.Webhook.Delivery
import TalentTrust.Webhook.Reputation

/-!
Signed requests at their receiver, who parses the body and checks it against the
two headers.

A reputation event is signed before the signature and the time are put into the
body, so what the receiver checks is never what was signed: the check succeeds
only if the two texts collide (`accepts_reputation_iff`). `WebhookService.send`
signs the data that it gives to its HTTP client, and the check succeeds if the
client prints them as a text that is read as the same data (`accepts_request_iff`).
A replay posts what the first delivery has posted (`request_replayed`).
-/

namespace TalentTrust.Webhook

open TalentTrust.Lib

/-! ### Requests -/

/-- A request with the headers `X-Signature` and, as a number, `X-Timestamp`. -/
structure SignedRequest where
  body : String
  signature : String
  timestamp : Int
  deriving DecidableEq

/-- What the receiver finds; `none` if the body is no JSON text. -/
def SignedRequest.check (request : SignedRequest) (secret : String) (now maxAgeMs : Int) :
    Option WebhookVerificationResult :=
  (Json.parseValue request.body).map fun payload =>
    verifyWebhookSignature payload (some request.signature) (some request.timestamp) (some secret) now
      maxAgeMs

/-- The request that `deliverToSubscription` makes, at every attempt. -/
def Reputation.request (event : Reputation.ReputationWebhookEvent) (secret : String) (sentAt : Int) :
    SignedRequest :=
  let signature := createWebhookSignature event.toJson secret sentAt
  { body := Json.stringify (Reputation.signedBody event signature)
    signature := "sha256=" ++ signature.signature
    timestamp := signature.timestamp }

/-- The HTTP client of `send`, which is not part of the program: how it prints the data of a
request with the type `application/json`. Objects and arrays are printed as JSON. -/
structure HttpClient where
  print : Json → String
  print_obj : ∀ fields, print (.obj fields) = Json.stringify (.obj fields)
  print_arr : ∀ items, print (.arr items) = Json.stringify (.arr items)

/-- A client that prints everything as JSON. -/
instance : Inhabited HttpClient where
  default := ⟨Json.stringify, fun _ => rfl, fun _ => rfl⟩

/-- The request of `send` at an attempt, if it is signed. -/
def WebhookPayload.request (client : HttpClient) (payload : WebhookPayload) (sentAt : Int) :
    Option SignedRequest :=
  (payload.webhookSecret.filter (· ≠ "")).map fun secret =>
    let signature := createWebhookSignature payload.data secret sentAt
    { body := client.print payload.data
      signature := "sha256=" ++ signature.signature
      timestamp := signature.timestamp }

/-- What `replayDLQEntry` sends for the row of a payload, with the body as its column has it. -/
def WebhookPayload.replayed (payload : WebhookPayload) : Option WebhookPayload :=
  (Json.parseValue (Json.stringify payload.data)).map fun body =>
    { payload with
      data := body
      retryCount := 0
      webhookSecret := payload.webhookSecret.filter (· ≠ "") }

/-! ### Checks -/

/-- A payload that is signed, and whose data is a JSON value. -/
structure SignedPayload extends WebhookPayload where
  secret : String
  value : Json.IsValue data
  given : webhookSecret = some secret
  nonempty : secret ≠ ""

/-- A request is signed at one time and checked at another, within the allowed age. -/
structure Passage where
  sentAt : Int
  now : Int
  maxAgeMs : Int
  recent : now - sentAt ≤ maxAgeMs

def SignedRequest.accepted (request : SignedRequest) (secret : String) (passage : Passage) : Bool :=
  (request.check secret passage.now passage.maxAgeMs).any WebhookVerificationResult.valid

/-- Two values whose texts differ and have the same signature. -/
structure Collide (a b : Json) (secret : String) (timestamp : Int) : Prop where
  texts : canonicalString a timestamp ≠ canonicalString b timestamp
  signatures : generateSignature a secret timestamp = generateSignature b secret timestamp

section Checks

variable {a b : Json}

theorem canonicalString_ne (differ : a ≠ b) (timestamp : Int) :
    canonicalString a timestamp ≠ canonicalString b timestamp := by
  intro same
  exact differ (Json.stringify_injective (String.append_right_inj _ |>.mp same))

theorem signatureBytes_eq_iff {secret : String} {timestamp : Int} :
    signatureBytes a secret timestamp = signatureBytes b secret timestamp ↔
      a = b ∨ Collide a b secret timestamp := by
  constructor
  · intro same
    by_cases equal : a = b
    · exact .inl equal
    · exact .inr ⟨canonicalString_ne equal timestamp, congrArg toHex same⟩
  · rintro (rfl | collide)
    · rfl
    · exact toHex_injective collide.signatures

theorem accepted_iff {signed received : Json} {body secret : String} (parsed : Json.parseValue body = some received)
    (passage : Passage) :
    SignedRequest.accepted ⟨body, "sha256=" ++ generateSignature signed secret passage.sentAt, passage.sentAt⟩
        secret passage = true ↔
      secret ≠ "" ∧ 0 < passage.sentAt ∧
        (signed = received ∨ Collide signed received secret passage.sentAt) := by
  rw [SignedRequest.accepted, SignedRequest.check, parsed, Option.map_some, Option.any_some, verify_signed_iff,
    signatureBytes_eq_iff]
  simp [passage.recent]

end Checks

/-! ### Reputation events -/

namespace Reputation

theorem isValue_data (data : ReputationEventData) : Json.IsValue (.obj data.fields) := by
  obtain ⟨_, _, _, _, _, _, _, _, _, comment⟩ := data
  cases comment with
  | none =>
    refine Json.isValue_obj ["targetId", "reviewerId", "rating", "contextId", "entryId", "newScore",
      "totalRatings", "weightedScore", "scoreAlgorithm"] rfl (by decide) ?_
    simp [ReputationEventData.fields, Json.isValue_str, Json.isValue_num]
  | some comment =>
    refine Json.isValue_obj ["targetId", "reviewerId", "rating", "contextId", "entryId", "newScore",
      "totalRatings", "weightedScore", "scoreAlgorithm", "comment"] rfl (by decide) ?_
    simp [ReputationEventData.fields, Json.isValue_str, Json.isValue_num]

variable (event : ReputationWebhookEvent) (signature : WebhookSignature)

theorem signedBody_eq :
    signedBody event signature =
      .obj [("eventType", .str event.eventType.text), ("eventId", .str event.eventId),
        ("timestamp", .num (Decimal.ofScaled signature.timestamp 0)), ("data", .obj event.data.fields),
        ("signature", .str signature.signature)] := rfl

theorem isValue_signedBody : Json.IsValue (signedBody event signature) := by
  rw [signedBody_eq]
  refine Json.isValue_obj ["eventType", "eventId", "timestamp", "data", "signature"] rfl (by decide) ?_
  simp [Json.isValue_str, Json.isValue_num, isValue_data]

/-- The body has a member more than the event. -/
theorem toJson_ne_signedBody : event.toJson ≠ signedBody event signature := by
  rw [signedBody_eq]
  intro same
  simp [ReputationWebhookEvent.toJson, ReputationWebhookEvent.fields] at same

theorem accepts_reputation_iff (secret : String) (passage : Passage) :
    (request event secret passage.sentAt).accepted secret passage = true ↔
      secret ≠ "" ∧ 0 < passage.sentAt ∧ Collide event.toJson
        (signedBody event (createWebhookSignature event.toJson secret passage.sentAt)) secret passage.sentAt := by
  have parsed := Json.parseValue_stringify
    (isValue_signedBody event (createWebhookSignature event.toJson secret passage.sentAt))
  refine (accepted_iff parsed passage).trans ?_
  rw [or_iff_right (toJson_ne_signedBody event _)]

end Reputation

/-! ### Payloads -/

/-- What the receiver reads is the data that were signed, or collides with them. -/
def ReadBack (client : HttpClient) (payload : SignedPayload) (sentAt : Int) : Prop :=
  ∃ received, Json.parseValue (client.print payload.data) = some received ∧
    (payload.data = received ∨ Collide payload.data received payload.secret sentAt)

section Payloads

variable (client : HttpClient) (payload : SignedPayload) (passage : Passage)

theorem request_of_signed (sentAt : Int) :
    payload.request client sentAt = some
      { body := client.print payload.data
        signature := "sha256=" ++ generateSignature payload.data payload.secret sentAt
        timestamp := sentAt } := by
  rw [WebhookPayload.request, payload.given]
  simp [Option.filter_some, payload.nonempty, createWebhookSignature]

theorem accepts_request_iff : ∃ request, payload.request client passage.sentAt = some request ∧
    (request.accepted payload.secret passage = true ↔
      0 < passage.sentAt ∧ ReadBack client payload passage.sentAt) := by
  refine ⟨_, request_of_signed client payload passage.sentAt, ?_⟩
  unfold ReadBack
  cases parsed : Json.parseValue (client.print payload.data) with
  | none => simp [SignedRequest.accepted, SignedRequest.check, parsed]
  | some received =>
    rw [accepted_iff parsed]
    simp [payload.nonempty]

variable {payload}

theorem readBack_of_printed (printed : client.print payload.data = Json.stringify payload.data)
    (sentAt : Int) : ReadBack client payload sentAt :=
  ⟨payload.data, by rw [printed, Json.parseValue_stringify payload.value], .inl rfl⟩

theorem readBack_of_structured
    (structured : (∃ fields, payload.data = .obj fields) ∨ ∃ items, payload.data = .arr items)
    (sentAt : Int) : ReadBack client payload sentAt := by
  apply readBack_of_printed
  rcases structured with ⟨fields, isObject⟩ | ⟨items, isArray⟩
  · rw [isObject, client.print_obj]
  · rw [isArray, client.print_arr]

variable (payload)

theorem request_replayed (sentAt : Int) :
    payload.replayed.bind (·.request client sentAt) = payload.request client sentAt := by
  rw [WebhookPayload.replayed, Json.parseValue_stringify payload.value]
  simp [WebhookPayload.request, payload.given, Option.filter_some, payload.nonempty]

end Payloads

/-- Which signed requests are accepted within the allowed age: none for a reputation event, unless
signatures collide; those of `send` and of its replays whose data the receiver reads back, as it
does all objects and arrays. -/
theorem signed_request_accepted_iff (event : Reputation.ReputationWebhookEvent) (secret : String)
    (client : HttpClient) (payload : SignedPayload) (passage : Passage) :
    ((Reputation.request event secret passage.sentAt).accepted secret passage = true ↔
      secret ≠ "" ∧ 0 < passage.sentAt ∧ Collide event.toJson
        (Reputation.signedBody event (createWebhookSignature event.toJson secret passage.sentAt)) secret
        passage.sentAt) ∧
    (∃ request, payload.request client passage.sentAt = some request ∧
      payload.replayed.bind (·.request client passage.sentAt) = some request ∧
      (request.accepted payload.secret passage = true ↔
        0 < passage.sentAt ∧ ReadBack client payload passage.sentAt)) ∧
    ((∃ fields, payload.data = .obj fields) ∨ (∃ items, payload.data = .arr items) →
      ReadBack client payload passage.sentAt) := by
  obtain ⟨request, made, accepts⟩ := accepts_request_iff client payload passage
  exact ⟨Reputation.accepts_reputation_iff event secret passage,
    ⟨request, made, (request_replayed client payload passage.sentAt).trans made, accepts⟩,
    fun structured => readBack_of_structured client structured passage.sentAt⟩

theorem check_of_mismatch {signed received : Json} {body secret : String} {timestamp now maxAgeMs : Int}
    (parsed : Json.parseValue body = some received) (named : secret ≠ "") (positive : 0 < timestamp)
    (young : now - timestamp ≤ maxAgeMs)
    (differ : generateSignature signed secret timestamp ≠ generateSignature received secret timestamp) :
    SignedRequest.check ⟨body, "sha256=" ++ generateSignature signed secret timestamp, timestamp⟩ secret now
        maxAgeMs = some (failure .invalidWebhookSignature "Webhook signature does not match") := by
  have bytes : signatureBytes signed secret timestamp ≠ signatureBytes received secret timestamp :=
    fun same => differ (congrArg toHex same)
  rw [SignedRequest.check, parsed, Option.map_some, verify_signed signed received named positive young,
    if_neg bytes]

theorem signature_event : generateSignature Reputation.sampleEvent.toJson "key" 1000 =
    "7a05dfb84949398948ce9bf7d2b40d726bae37a9e6a621dfc3b414a1773fd012" := by
  decide +kernel

theorem signature_body : generateSignature (Reputation.signedBody Reputation.sampleEvent
      ⟨"7a05dfb84949398948ce9bf7d2b40d726bae37a9e6a621dfc3b414a1773fd012", 1000⟩) "key" 1000 =
    "5f44123995f4da1733e2e47e890ad12e9141246996b2633c698398aee5270178" := by
  decide +kernel

/-- A rating is rejected by its receiver at once. -/
theorem signed_requests_rejected :
    (Reputation.request Reputation.sampleEvent "key" 1000).check "key" 1000 webhookSignatureMaxAgeMs =
      some (failure .invalidWebhookSignature "Webhook signature does not match") := by
  apply check_of_mismatch (Json.parseValue_stringify (Reputation.isValue_signedBody _ _))
    (by decide) (by decide) (by decide)
  rw [createWebhookSignature, signature_event, signature_body]
  decide

end TalentTrust.Webhook
