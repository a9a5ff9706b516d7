import TalentTrust.Http.IdempotencyStore
import TalentTrust.Reputation.Service

/-!
The routes that write ratings: `routes/reputation.routes.ts`, its schemas,
`middleware/reputationIdempotency.ts` and `controllers/reputation.controller.ts`.

The reviewer of a rating is a field of the body. Nothing between the token and the
table compares it with the user of the token, so a party of a contract can rate in
the name of the other one, and so rate itself. `ratings_own_iff` says when a run
does not: no request that reaches the controller has a rating under another name
that the service would accept.
-/

namespace TalentTrust.Reputation

open TalentTrust.Lib TalentTrust.Auth TalentTrust.Http

/-! ### Schemas -/

def isNotSpamComment (comment : String) : Bool :=
  isBlank comment || decide (2 * maxCharCount comment ≤ jsLength comment)

def stringField (body : Json) (key : String) : Option String :=
  match body.get? key with
  | some (.str value) => some value
  | _ => none

def numberField (body : Json) (key : String) : Option Decimal :=
  match body.get? key with
  | some (.num value) => some value
  | _ => none

/-- The field `comment`, which may be missing. -/
def commentField (body : Json) : Option (Option String) :=
  match body.get? "comment" with
  | none => some none
  | some (.str comment) =>
    if jsLength comment ≤ 1000 ∧ isNotSpamComment comment then some (some comment) else none
  | some _ => none

def updateReputationSchema (host : Host) (body : Json) : Option CreateRatingBody := do
  let reviewerId ← (stringField body "reviewerId").filter (· ≠ "")
  let contextId ← (stringField body "contextId").filter host.isUuid
  let rating ← (numberField body "rating").filter isRating
  let comment ← commentField body
  pure { reviewerId, contextId, rating, comment }

/-- `bulkRatingItemSchema`: the fields of a single rating and the target. -/
def bulkRatingItemSchema (host : Host) (item : Json) : Option CreateReputationEntry := do
  let targetId ← (stringField item "targetId").filter (· ≠ "")
  let body ← updateReputationSchema host item
  pure (body.toEntry targetId)

def maxBulkBatchSize : Nat := 50

def bulkReputationSchema (host : Host) (body : Json) : Option (List CreateReputationEntry) :=
  match body.get? "items" with
  | some (.arr items) =>
    if 1 ≤ items.length ∧ items.length ≤ maxBulkBatchSize then items.mapM (bulkRatingItemSchema host)
    else none
  | _ => none

/-! ### Requests -/

inductive Route where
  /-- `POST /reputation/bulk`. -/
  | bulk
  /-- `POST /reputation/:id/rate`. -/
  | rate (id : String)
  /-- `PUT /reputation/:id`. -/
  | update (id : String)
  deriving DecidableEq

def Route.method : Route → String
  | .bulk | .rate _ => "POST"
  | .update _ => "PUT"

/-- A request. `limited` is what the rate limiter decides, and `path` is the URL up to
its query. -/
structure Request where
  limited : Bool
  authorization : Option String
  route : Route
  path : String
  idempotencyKey : Option String
  correlationId : Option String
  body : Json

/-- What the schema of the route has let through. -/
inductive Payload where
  | rating (targetId : String) (body : CreateRatingBody)
  | bulk (items : List CreateReputationEntry)
  deriving DecidableEq

/-- `validateSchema`, with `reputationParamsSchema` where the route has an id. -/
def Request.payload (host : Host) (req : Request) : Option Payload :=
  match req.route with
  | .bulk => (bulkReputationSchema host req.body).map .bulk
  | .rate id | .update id =>
    if id = "" then none else (updateReputationSchema host req.body).map (.rating id)

def ratingFields (entry : CreateReputationEntry) : List (String × Json) :=
  [("reviewerId", .str entry.reviewerId), ("contextId", .str entry.contextId),
    ("rating", .num entry.rating)] ++
    (entry.comment.map fun comment => ("comment", Json.str comment)).toList

/-- `req.body` after validation. -/
def Payload.body : Payload → Json
  | .rating targetId body => .obj (ratingFields (body.toEntry targetId))
  | .bulk items =>
    .obj [("items", .arr (items.map fun item =>
      .obj (("targetId", .str item.targetId) :: ratingFields item)))]

/-! ### Responses -/

inductive ResponseBody where
  | profile (data : ReputationProfile)
  | results (data : List BulkResult)
  | error (code message : String)

structure Response where
  statusCode : Nat
  body : ResponseBody

/-- The way to the idempotency middleware: the limiter, `requireAuth`,
`requirePermission('reviews', 'create')` and the schema. -/
def vet (host : Host) (req : Request) : Except Response (User × Payload) :=
  if req.limited then
    .error ⟨429, .error "rate_limited" "Too many requests — please try again later"⟩
  else match requireAuth host.verify req.authorization with
    | .error message => .error ⟨401, .error "unauthorized" message⟩
    | .ok user =>
      if requirePermission user .reviews .create ≠ .granted then
        .error ⟨403, .error "forbidden" "You do not have permission to perform this action."⟩
      else match req.payload host with
        | none => .error ⟨400, .error "validation_error" "Request validation failed"⟩
        | some payload => .ok (user, payload)

theorem authenticated_of_vet {host : Host} {req : Request} {user : User} {payload : Payload}
    (vetted : vet host req = .ok (user, payload)) :
    requireAuth host.verify req.authorization = .ok user := by
  unfold vet at vetted
  repeat' split at vetted
  all_goals cases vetted
  assumption

/-! ### The idempotency middleware -/

abbrev Store := IdempotencyStore Response

/-- How the middleware leaves a request: answered, or passed on, with the key and the
hash under which `res.json` stores the response. -/
inductive Verdict where
  | answer (response : Response)
  | next (record : Option (String × String))

def reputationIdempotencyMiddleware (host : Host) (store : Store) (req : Request) (user : User)
    (payload : Payload) (now : Int) : Verdict × Store :=
  match req.idempotencyKey with
  | none => (.next none, store)
  | some header =>
    if isBlank header ∨ 255 < jsLength header then
      (.answer ⟨400, .error "invalid_idempotency_key"
        "Idempotency-Key must be a non-empty string of at most 255 characters."⟩, store)
    else if user.id = "" then
      (.answer ⟨401, .error "unauthorized" "Authentication required."⟩, store)
    else
      let scopedKey := sha256Hex host.sha256
        (user.id ++ ":" ++ req.route.method ++ ":" ++ req.path ++ ":" ++ trim header)
      let payloadHash := sha256Hex host.sha256 (Json.stringifySorted codeUnitLe payload.body)
      match store.get scopedKey now with
      | (some existing, store') =>
        if existing.payloadHash ≠ payloadHash then
          (.answer ⟨409, .error "idempotency_payload_conflict"
            "Idempotency-Key was already used with a different request payload."⟩, store')
        else (.answer existing.result, store')
      | (none, store') => (.next (some (scopedKey, payloadHash)), store')

/-! ### The controller -/

/-- The handler of single ratings. Its handler of errors calls a function that does not exist, so
nothing is sent when the service throws. -/
def ReputationController.createRating (host : Host) (s : Backend) (targetId : String) (body : CreateRatingBody)
    (correlationId : Option String) (draw : RatingDraw) : Option Response × Backend :=
  if isValidReputationRatingPayload body = false then
    (some ⟨400, .error "bad_request"
      "Invalid payload: reviewerId and a valid integer rating (1–5) are required"⟩, s)
  else match updateProfile host s targetId body correlationId draw with
    | (.error _, s') => (none, s')
    | (.ok profile, s') => (some ⟨200, .profile profile⟩, s')

def invalidItem : Failure :=
  .validation "Invalid item: reviewerId, targetId, contextId are required, and rating must be a finite integer (1–5)"

/-- The loop that puts the errors of validation and the results of the service into the
order of the items, from item `i` on; `none` is `undefined`. -/
def mergeResults : Nat → List CreateReputationEntry → List (Nat × Failure) → List BulkResult →
    List (Option BulkResult)
  | _, [], _, _ => []
  | i, _ :: items, [], results => results.head? :: mergeResults (i + 1) items [] results.tail
  | i, _ :: items, (index, failure) :: errors, results =>
    if index = i then
      some ⟨i, .error failure⟩ :: mergeResults (i + 1) items errors results
    else results.head? :: mergeResults (i + 1) items ((index, failure) :: errors) results.tail

/-- The handler of batches. -/
def ReputationController.createBulkRatings (host : Host) (s : Backend) (items : List CreateReputationEntry)
    (correlationId : Option String) (draws : Nat → RatingDraw) : Option Response × Backend :=
  if items = [] then (none, s)
  else
    let validItems := items.filter isValidReputationBulkItem
    let validationErrors := items.zipIdx.filterMap fun (item, i) =>
      if isValidReputationBulkItem item then none else some (i, invalidItem)
    let served := if validItems = [] then (.ok [], s)
      else Reputation.createBulkRatings host s validItems correlationId draws
    match served with
    | (.error _, s') => (none, s')
    | (.ok serviceResults, s') =>
      -- A result that is `undefined` makes the count of failures throw.
      match (mergeResults 0 items validationErrors serviceResults).mapM id with
      | none => (none, s')
      | some allResults =>
        let failures := allResults.filter fun result => !result.outcome.toBool
        (some ⟨if failures.length = 0 then 200 else 207, .results allResults⟩, s')

def controller (host : Host) (s : Backend) (payload : Payload) (correlationId : Option String)
    (draws : Nat → RatingDraw) : Option Response × Backend :=
  match payload with
  | .rating targetId body => ReputationController.createRating host s targetId body correlationId (draws 0)
  | .bulk items => ReputationController.createBulkRatings host s items correlationId draws

/-! ### Runs -/

structure State extends Backend where
  idempotency : Store

/-- A request, the time, and what is drawn for each rating. -/
structure Event where
  request : Request
  now : Int
  draws : Nat → RatingDraw

variable (host : Host) (s : State) (e : Event)

/-- One request. From the middleware to the response nothing is awaited. -/
def handle : Option Response × State :=
  match vet host e.request with
  | .error response => (some response, s)
  | .ok (user, payload) =>
    match reputationIdempotencyMiddleware host s.idempotency e.request user payload e.now with
    | (.answer response, store) => (some response, { s with idempotency := store })
    | (.next record, store) =>
      let (response, backend) :=
        controller host s.toBackend payload e.request.correlationId e.draws
      let idempotency := match response, record with
        | some response, some (key, payloadHash) =>
          store.set { key, payloadHash, result := response, createdAt := e.now } e.now
        | _, _ => store
      (response, { toBackend := backend, idempotency })

def step : State := (handle host s e).2

/-! ### The property and the condition -/

/-- The request gets to the controller, as this user and with this payload. -/
def Reaches (user : User) (payload : Payload) : Prop :=
  vet host e.request = .ok (user, payload) ∧ ∃ record,
    (reputationIdempotencyMiddleware host s.idempotency e.request user payload e.now).1 = .next record

/-- The ratings of a payload that the controller hands to the service. -/
def Payload.ratings : Payload → List CreateReputationEntry
  | .rating targetId body =>
    if targetId ≠ "" ∧ isValidReputationRatingPayload body then [body.toEntry targetId] else []
  | .bulk items => items.filter isValidReputationBulkItem

/-- Every row that the request adds has its caller as the reviewer, and another user as
the target. -/
def AddsOwnRatings : Prop :=
  ∀ row ∈ (step host s e).db.entries, row ∉ s.db.entries →
    ∃ user, requireAuth host.verify e.request.authorization = .ok user ∧
      row.reviewerId = user.id ∧ row.targetId ≠ user.id

/-- If the request gets to the controller, every rating in it that could be inserted
names the caller. -/
def NamesCaller : Prop :=
  ∀ user payload, Reaches host s e user payload →
    ∀ rating ∈ payload.ratings, Ratable host s.db rating → rating.reviewerId = user.id

/-- The ids drawn for the request are new. -/
def FreshIds : Prop := FreshFrom e.draws 0 s.db

/-! ### What a request adds -/

variable (host : Host) (s : Backend)

theorem ReputationController.createRating_db (targetId : String) (body : CreateRatingBody)
    (correlationId : Option String) (draws : Nat → RatingDraw) :
    (ReputationController.createRating host s targetId body correlationId (draws 0)).2.db =
      (bulkLoop host correlationId draws 0 (Payload.rating targetId body).ratings s).2.db := by
  have served : (ReputationController.createRating host s targetId body correlationId (draws 0)).2 =
      (updateProfile host s targetId body correlationId (draws 0)).2 := by
    unfold ReputationController.createRating
    split
    · rename_i invalid
      exact (updateProfile_of_invalid correlationId (draws 0) (.inr invalid)).symm
    · split <;> simp [*]
  rw [served, Payload.ratings]
  split
  · rename_i valid
    cases ready : host.initialized with
    | false => rw [bulkLoop_uninitialized ready, updateProfile_of_uninitialized _ _ ready]
    | true => rw [updateProfile_of_valid correlationId (draws 0) ready valid.1 valid.2]; rfl
  · rename_i invalid
    rw [not_and_or, not_not, Bool.not_eq_true] at invalid
    rw [updateProfile_of_invalid correlationId (draws 0) invalid]
    rfl

section Batch

variable {valid : CreateReputationEntry → Bool} {items : List CreateReputationEntry}

theorem mergeResults_of_later (item : CreateReputationEntry) {i : Nat} {errors : List (Nat × Failure)}
    (later : ∀ error ∈ errors, i < error.1) (results : List BulkResult) :
    mergeResults i (item :: items) errors results =
      results.head? :: mergeResults (i + 1) items errors results.tail := by
  cases errors with
  | nil => rfl
  | cons error errors => rw [mergeResults, if_neg (later error List.mem_cons_self).ne']

/-- The merged results: an invalid item has its error, a valid one the next result. -/
theorem mergeResults_spec (i : Nat) (results : List BulkResult)
    (enough : results.length = (items.filter valid).length) :
    ∃ merged, (mergeResults i items ((items.zipIdx i).filterMap fun (item, k) =>
        if valid item then none else some (k, invalidItem)) results).mapM id = some merged ∧
      merged.length = items.length ∧ ∀ k item, items[k]? = some item →
        merged[k]? = if valid item then results[((items.take k).filter valid).length]?
          else some ⟨i + k, .error invalidItem⟩ := by
  induction items generalizing i results with
  | nil => exact ⟨[], rfl, rfl, fun k item found => by cases found⟩
  | cons item items ih =>
    rw [List.zipIdx_cons, List.filterMap_cons]
    cases ok : valid item with
    | true =>
      cases results with
      | nil => simp [ok] at enough
      | cons result results =>
        obtain ⟨merged, lined, length, each⟩ := ih (i + 1) results (by simpa [ok] using enough)
        refine ⟨result :: merged, ?_, congrArg (· + 1) length, ?_⟩
        · simp only [ok, if_true]
          rw [mergeResults_of_later]
          · simp [lined]
          · intro error mem
            obtain ⟨⟨other, k⟩, among, invalid⟩ := List.mem_filterMap.mp mem
            have := (List.mem_zipIdx among).1
            grind
        · rintro (_ | k) other found
          · cases found
            simp [ok]
          · simpa [ok, Nat.add_assoc, Nat.add_comm 1] using each k other found
    | false =>
      obtain ⟨merged, lined, length, each⟩ := ih (i + 1) results (by simpa [ok] using enough)
      refine ⟨⟨i, .error invalidItem⟩ :: merged, ?_, congrArg (· + 1) length, ?_⟩
      · simp [mergeResults, ok, lined]
      · rintro (_ | k) other found
        · cases found
          simp [ok]
        · simpa [ok, Nat.add_assoc, Nat.add_comm 1] using each k other found

variable (items) (correlationId : Option String) (draws : Nat → RatingDraw)

/-- What the service makes of the valid items of a batch. -/
def served : List BulkResult × Backend :=
  bulkLoop host correlationId draws 0 (items.filter isValidReputationBulkItem) s

/-- A batch that is not empty is answered if the service is there for what is valid in it. -/
def Answered : Prop :=
  items ≠ [] ∧ (host.initialized = true ∨ items.filter isValidReputationBulkItem = [])

theorem createBulkRatings_cases :
    ¬ Answered host items ∧
        ReputationController.createBulkRatings host s items correlationId draws = (none, s) ∨
      Answered host items ∧ ∃ merged,
        ReputationController.createBulkRatings host s items correlationId draws =
          (some ⟨if (merged.filter fun result => !result.outcome.toBool).length = 0 then 200 else 207,
            .results merged⟩, (served host s items correlationId draws).2) ∧
        merged.length = items.length ∧ ∀ k item, items[k]? = some item →
          merged[k]? = if isValidReputationBulkItem item then
            (served host s items correlationId draws).1[
              ((items.take k).filter isValidReputationBulkItem).length]?
          else some ⟨k, .error invalidItem⟩ := by
  have length : (served host s items correlationId draws).1.length =
      (items.filter isValidReputationBulkItem).length := by
    simpa [served] using congrArg List.length (map_index_bulkLoop 0 s)
  obtain ⟨merged, lined, spec⟩ := mergeResults_spec 0 _ length
  simp only [Nat.zero_add] at spec
  unfold Answered ReputationController.createBulkRatings
  by_cases empty : items = []
  · exact .inl ⟨fun answered => answered.1 empty, if_pos empty⟩
  by_cases unserved : items.filter isValidReputationBulkItem = []
  · have idle : served host s items correlationId draws = ([], s) := by
      rw [served, unserved]
      rfl
    rw [idle] at lined
    refine .inr ⟨⟨empty, .inr unserved⟩, merged, ?_, spec⟩
    simp [idle, unserved, empty, lined]
  · cases on : host.initialized with
    | false => exact .inl ⟨by simp [unserved], by simp [empty, unserved, Reputation.createBulkRatings, on]⟩
    | true =>
      unfold served at lined
      refine .inr ⟨⟨empty, .inl rfl⟩, merged, ?_, spec⟩
      simp only [empty, unserved, Reputation.createBulkRatings, on, Bool.true_eq_false, if_false, lined]
      rfl

theorem ReputationController.createBulkRatings_db :
    (ReputationController.createBulkRatings host s items correlationId draws).2.db =
      (served host s items correlationId draws).2.db := by
  rcases createBulkRatings_cases host s items correlationId draws with ⟨unanswered, same⟩ | ⟨-, _, same, -⟩
  · rw [same, served]
    by_cases empty : items = []
    · rw [empty]
      rfl
    · have off := (not_or.mp (not_and.mp unanswered empty)).1
      rw [bulkLoop_uninitialized (Bool.not_eq_true _ ▸ off)]
  · rw [same]

end Batch

theorem controller_db (payload : Payload) (correlationId : Option String)
    (draws : Nat → RatingDraw) :
    (controller host s payload correlationId draws).2.db =
      (bulkLoop host correlationId draws 0 payload.ratings s).2.db := by
  cases payload with
  | rating targetId body => exact ReputationController.createRating_db host s targetId body correlationId draws
  | bulk items => exact ReputationController.createBulkRatings_db host s items correlationId draws

/-- A request that gets to the controller rates what its payload asks for; another one
leaves the tables as they are. -/
theorem step_db (s : State) (e : Event) :
    (∃ user payload, Reaches host s e user payload ∧
      requireAuth host.verify e.request.authorization = .ok user ∧
      (step host s e).db =
        (bulkLoop host e.request.correlationId e.draws 0 payload.ratings s.toBackend).2.db) ∨
    ((∀ user payload, ¬ Reaches host s e user payload) ∧ (step host s e).db = s.db) := by
  unfold step handle
  cases vetted : vet host e.request with
  | error response =>
    refine .inr ⟨fun user payload reached => ?_, rfl⟩
    cases vetted.symm.trans reached.1
  | ok caller =>
    obtain ⟨user, payload⟩ := caller
    dsimp only
    split
    · rename_i response store answered
      refine .inr ⟨fun user' payload' reached => ?_, rfl⟩
      obtain ⟨same, record, passed⟩ := reached
      cases vetted.symm.trans same
      rw [answered] at passed
      cases passed
    · rename_i record store passed
      have reached : Reaches host s e user payload := ⟨vetted, record, congrArg Prod.fst passed⟩
      exact .inl ⟨user, payload, reached, authenticated_of_vet vetted,
        controller_db host s.toBackend payload e.request.correlationId e.draws⟩

/-- A request adds ratings of its caller only iff no acceptable rating in it has another
reviewer. -/
theorem addsOwnRatings_iff {host : Host} {s : State} {e : Event} (fresh : FreshIds s e) :
    NamesCaller host s e ↔ AddsOwnRatings host s e := by
  rcases step_db host s e with ⟨user, payload, reached, authenticated, rated⟩ | ⟨stopped, kept⟩
  · constructor
    · intro named row stored added
      rw [rated] at stored
      obtain ⟨listed, ratable⟩ := ratable_of_added stored added
      have reviewer := named user payload reached _ listed ratable
      exact ⟨user, authenticated, reviewer, fun target => ratable.other (reviewer.trans target.symm)⟩
    · intro own user' payload' reached' rating listed ratable
      cases reached.1.symm.trans reached'.1
      -- The batch leaves a row with the triple of the rating, and no row had it before.
      obtain ⟨row, stored, same⟩ := List.mem_map.mp
        (added_of_ratable fresh listed ratable : rating.triple ∈ _)
      have added : row ∉ s.db.entries := fun old => ratable.new (List.mem_map.mpr ⟨row, old, same⟩)
      rw [← rated] at stored
      obtain ⟨caller, found, reviewer, _⟩ := own row stored added
      cases authenticated.symm.trans found
      rw [← reviewer]
      exact (congrArg Prod.fst same).symm
  · constructor
    · intro _ row stored added
      rw [kept] at stored
      exact absurd stored added
    · intro _ user payload reached
      exact absurd reached (stopped user payload)

/-- A run, in which every drawn id is new, adds ratings of the callers only iff no
request of it gets an acceptable rating under another name to the controller. -/
theorem ratings_own_iff (host : Host) (s : State) (events : List Event)
    (fresh : Along (step host) FreshIds s events) :
    Along (step host) (NamesCaller host) s events ↔ Along (step host) (AddsOwnRatings host) s events :=
  fresh.congr fun _ _ drawn => addsOwnRatings_iff drawn

/-! ### The results of a batch -/

variable (items : List CreateReputationEntry)

/-- The response has one result for every item, which has the position of the item and the error
of its validation or what the service made of it. -/
def LinesUp (correlationId : Option String) (draws : Nat → RatingDraw) : Prop :=
  ∃ statusCode results,
    (ReputationController.createBulkRatings host s items correlationId draws).1 =
        some ⟨statusCode, .results results⟩ ∧
      results.length = items.length ∧ ∀ k item, items[k]? = some item →
        ∃ result, results[k]? = some result ∧ result.index = k ∧
          if isValidReputationBulkItem item then
            ((served host s items correlationId draws).1[
              ((items.take k).filter isValidReputationBulkItem).length]?).map (·.outcome) =
                some result.outcome
          else result.outcome = .error invalidItem

/-- Nothing invalid comes before a valid item. -/
def ValidFirst : Prop :=
  ∀ k item, items[k]? = some item → isValidReputationBulkItem item = true →
    ∀ earlier ∈ items.take k, isValidReputationBulkItem earlier = true

/-- The results of a batch line up with its items iff it is answered and nothing invalid comes
before a valid item: the service numbers the valid items only. -/
theorem bulk_results_line_up_iff (host : Host) (s : Backend) (items : List CreateReputationEntry)
    (correlationId : Option String) (draws : Nat → RatingDraw) :
    LinesUp host s items correlationId draws ↔ Answered host items ∧ ValidFirst items := by
  rcases createBulkRatings_cases host s items correlationId draws with
    ⟨unanswered, nothing⟩ | ⟨answered, merged, response, length, each⟩
  · refine iff_of_false ?_ fun both => unanswered both.1
    rintro ⟨statusCode, results, same, -⟩
    rw [nothing] at same
    cases same
  have numbered : ∀ (k : Nat) (result : BulkResult), (served host s items correlationId draws).1[k]? = some result →
      result.index = k := by
    intro k result found
    have index : ((served host s items correlationId draws).1.map (·.index))[k]? = _ :=
      congrArg (·[k]?) (map_index_bulkLoop 0 s)
    rw [List.getElem?_map, found, Option.map_some] at index
    simpa using (List.getElem?_eq_some_iff.mp index.symm).2.symm
  constructor
  · rintro ⟨_, results, same, -, reports⟩
    rw [response] at same
    cases same
    refine ⟨answered, fun k item found valid => List.length_filter_eq_length_iff.mp ?_⟩
    obtain ⟨result, reported, position, -⟩ := reports k item found
    rw [each k item found, if_pos valid] at reported
    rw [List.length_take_of_le (List.getElem?_eq_some_iff.mp found).1.le]
    exact (numbered _ result reported).symm.trans position
  · rintro ⟨-, first⟩
    refine ⟨_, merged, congrArg Prod.fst response, length, fun k item found => ?_⟩
    have within : k < items.length := (List.getElem?_eq_some_iff.mp found).1
    obtain ⟨result, reported⟩ : ∃ result, merged[k]? = some result :=
      ⟨_, List.getElem?_eq_getElem (length ▸ within)⟩
    have expected := (each k item found).symm.trans reported
    refine ⟨result, reported, ?_⟩
    split at expected
    · rename_i valid
      have rank := List.length_filter_eq_length_iff.mpr (first k item found valid)
      rw [List.length_take_of_le within.le] at rank
      exact ⟨(numbered _ _ expected).trans rank, by rw [if_pos valid, expected, Option.map_some]⟩
    · rename_i invalid
      rw [← Option.some.inj expected]
      exact ⟨rfl, if_neg invalid ▸ rfl⟩

/-! ### A run -/

def plainHost : Host where
  sha256 _ := []
  isUuid text := text.length = 36
  verify token := .ok ⟨some token, some "mail", some "freelancer"⟩
  enabled := true
  initialized := true

def oneContract : State where
  db :=
    { users := ["u1", "u2"]
      contracts := [⟨"7c9e6679-7425-40de-944b-e07fc1f90ae7", "u1", "u2"⟩]
      entries := []
      ids_differ := List.nodup_nil
      triples_differ := List.nodup_nil
      checked := by simp
      reviewers := by simp
      targets := by simp
      contexts := by simp }
  audit := .memory .empty
  idempotency := .fresh

def ratingByU1 (caller : String) : Event where
  request :=
    { limited := false
      authorization := some ("Bearer " ++ caller)
      route := .update "u2"
      path := "/api/v1/reputation/u2"
      idempotencyKey := none
      correlationId := none
      body := .obj [("reviewerId", .str "u1"),
        ("contextId", .str "7c9e6679-7425-40de-944b-e07fc1f90ae7"), ("rating", .num (.ofNat 5))] }
  now := 0
  draws i := ⟨⟨String.ofList (List.replicate i 'x'), "2026-01-01T00:00:00.000Z"⟩,
    ⟨"log", "2026-01-01T00:00:00.000Z"⟩⟩

/-- The user `u2` is the caller of the request that adds a rating of `u2` by `u1`. -/
theorem rating_under_another_name :
    requireAuth plainHost.verify (ratingByU1 "u2").request.authorization =
        .ok ⟨"u2", "mail", .freelancer⟩ ∧
      oneContract.db.entries = [] ∧
      (step plainHost oneContract (ratingByU1 "u2")).db.entries.map (·.triple) =
        [("u1", "u2", "7c9e6679-7425-40de-944b-e07fc1f90ae7")] := by
  refine ⟨rfl, rfl, ?_⟩
  decide +kernel

/-- Sent by `u1`, the same request adds a rating of its caller. -/
theorem ratings_own_iff_reviewer :
    (step plainHost oneContract (ratingByU1 "u1")).db.entries.map (·.triple) =
        [("u1", "u2", "7c9e6679-7425-40de-944b-e07fc1f90ae7")] ∧
      Along (step plainHost) (AddsOwnRatings plainHost) oneContract [ratingByU1 "u1"] := by
  have fresh : Along (step plainHost) FreshIds oneContract [ratingByU1 "u1"] := by
    refine ⟨⟨fun _ _ => List.not_mem_nil, fun i j same => ?_⟩, trivial⟩
    simpa [ratingByU1] using congrArg (fun id => id.toList.length) same
  refine ⟨by decide +kernel, (ratings_own_iff plainHost oneContract _ fresh).mp ⟨?_, trivial⟩⟩
  intro user payload reached rating listed _
  have vetted : vet plainHost (ratingByU1 "u1").request = .ok (⟨"u1", "mail", .freelancer⟩,
      .rating "u2" ⟨"u1", "7c9e6679-7425-40de-944b-e07fc1f90ae7", .ofNat 5, none⟩) := by
    rfl
  cases vetted.symm.trans reached.1
  rw [Payload.ratings] at listed
  split at listed
  · rw [List.mem_singleton.mp listed]
    rfl
  · cases listed

/-- A rating after an item without a reviewer is reported at the position of that item. -/
theorem bulk_results_misnumbered :
    ∃ results, (ReputationController.createBulkRatings plainHost oneContract.toBackend
        [⟨"", "u2", .ofNat 5, none, "7c9e6679-7425-40de-944b-e07fc1f90ae7"⟩,
          ⟨"u1", "u2", .ofNat 5, none, "7c9e6679-7425-40de-944b-e07fc1f90ae7"⟩] none
        (ratingByU1 "u1").draws).1 = some ⟨207, .results results⟩ ∧ results.map (·.index) = [0, 0] :=
  ⟨_, rfl, rfl⟩

end TalentTrust.Reputation
