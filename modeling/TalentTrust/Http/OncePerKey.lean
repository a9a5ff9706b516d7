import TalentTrust.Http.ContractIdempotency
import TalentTrust.Http.HeaderIdempotency
import TalentTrust.Lib.Once
import TalentTrust.Reputation.Routes

/-!
Concurrent requests with one idempotency key.

Four middlewares look a key up when a request arrives and store the response when
the handler behind them sends it. Each is a gate of `Lib.Once`: three over an
`InMemoryIdempotencyStore`, with the keys they build, and
`createIdempotencyMiddleware` over its own map. None of them marks a key as taken
while its handler runs, so requests that overlap start the handler again
(`overlapping_requests_start_twice`); it is started once per record exactly when
they do not (`handler_started_once_iff`).
-/

namespace TalentTrust.Http

open TalentTrust.Lib

/-- An `Idempotency-Key` header that is not blank. -/
structure IdempotencyKey where
  text : String
  nonblank : isBlank text = false
  deriving DecidableEq

/-! ### The middleware of the API-key routes -/

namespace ApiKeyIdempotency

/-- What `apiKeysIdempotencyMiddleware` reads of a request. -/
structure Request where
  method : String
  originalUrl : String
  idempotencyKey : Option String
  user : Option ContractIdempotency.User
  requestId : Option String
  body : Option Json
  deriving DecidableEq

abbrev Store := IdempotencyStore ContractIdempotency.StoredResponse

def getUserScopeId (req : Request) : Option String :=
  req.user.bind fun user => user.userId.or (user.id.or user.sub)

/-- `req.originalUrl.split('?')[0]`. -/
def Request.path (req : Request) : String :=
  String.ofList (req.originalUrl.toList.takeWhile (· ≠ '?'))

def buildScopedKey (sha256 : String → List UInt8) (userScopeId idempotencyKey method path : String) :
    String :=
  sha256Hex sha256 (userScopeId ++ ":" ++ method ++ ":" ++ path ++ ":" ++ trim idempotencyKey)

/-- `computePayloadHash`; a missing body counts as an empty object. -/
def computePayloadHash (sha256 : String → List UInt8) (body : Option Json) : String :=
  sha256Hex sha256 (Json.stringifySorted codeUnitLe (body.getD (.obj [])))

inductive Verdict where
  | answer (status : Nat) (body : Json)
  /-- `next()`; with a key, `res.json` stores the response under it. -/
  | next (record : Option (String × String))
  deriving DecidableEq

def errorBody (req : Request) (code message : String) : Json :=
  .obj [("error", .obj [("code", .str code), ("message", .str message),
    ("requestId", .str (req.requestId.getD "unknown"))])]

def apiKeysIdempotencyMiddleware (sha256 : String → List UInt8) (store : Store) (req : Request)
    (now : Int) : Verdict × Store :=
  match req.idempotencyKey.filter fun key => !isBlank key with
  | none => (.next none, store)
  | some key =>
    match getUserScopeId req with
    | none => (.answer 401 (errorBody req "unauthorized" "Authentication required"), store)
    | some userScopeId =>
      let scopedKey := buildScopedKey sha256 userScopeId key req.method req.path
      let payloadHash := computePayloadHash sha256 req.body
      match store.get scopedKey now with
      | (some existing, store') =>
        if existing.payloadHash ≠ payloadHash then
          (.answer 409 (errorBody req "conflict"
            "Idempotency-Key was reused with a different request body"), store')
        else (.answer existing.result.statusCode existing.result.body, store')
      | (none, store') => (.next (some (scopedKey, payloadHash)), store')

end ApiKeyIdempotency

/-! ### Gates over an idempotency store -/

section StoreGate

variable {α C A : Type}

/-- The uses of a store by other requests and by its sweep. -/
inductive StoreUse (α : Type) where
  | get (key : String) (now : Int)
  | set (record : NewRecord α) (now : Int)
  | sweep (now : Int)

def StoreUse.apply (store : IdempotencyStore α) : StoreUse α → IdempotencyStore α
  | .get key now => (store.get key now).2
  | .set record now => store.set record now
  | .sweep now => store.purgeExpired now

/-- Uses that do not write a record under the key. -/
structure OtherUse (α : Type) (key : Option String) where
  use : StoreUse α
  elsewhere : ∀ record now, use = .set record now → ∀ k ∈ key, record.key ≠ k

variable (key : Option String) (arrive : IdempotencyStore α → Int → Option C × IdempotencyStore α)

/-- A gate for the requests that look `key` up, if they come to that. -/
def storeGate (record : IdempotencyStore α → C → A → Int → IdempotencyStore α) :
    Gate (IdempotencyStore α) C A (OtherUse α key) where
  arrive := arrive
  record := record
  other store use := use.use.apply store
  held store := key.any store.records.has

/-- A request that looks a key up is passed on exactly when it finds no record. -/
def LooksUp : Prop :=
  ∀ store now, ∀ k ∈ key, (arrive store now).2 = (store.get k now).2 ∧
    ((arrive store now).1 = none ↔ (store.get k now).1 ≠ none)

variable {k : String}

theorem has_of_within {new old : IdempotencyStore α} (within : new.Within old)
    (absent : old.records.has k = false) : new.records.has k = false := by
  rw [OrderedMap.has] at absent ⊢
  cases held : new.records.get? k with
  | none => rfl
  | some record =>
    rw [within k record held] at absent
    cases absent

variable {store : IdempotencyStore α} {now : Int}

theorem has_set_other {record : NewRecord α} (other : record.key ≠ k)
    (absent : store.records.has k = false) : (store.set record now).records.has k = false := by
  rw [OrderedMap.has] at absent ⊢
  cases held : (store.set record now).records.get? k with
  | none => rfl
  | some found =>
    rcases IdempotencyStore.records_set held with ⟨same, -⟩ | ⟨-, before⟩
    · exact absurd same.symm other
    · rw [before] at absent
      cases absent

theorem absent_of_get (missing : (store.get k now).1 = none) :
    (store.get k now).2.records.has k = false := by
  unfold IdempotencyStore.get at missing ⊢
  split
  · rename_i absent
    rw [OrderedMap.has, absent]
    rfl
  · rename_i record held
    rw [held] at missing
    split
    · rw [OrderedMap.has, OrderedMap.get?_erase, if_pos rfl]
      rfl
    · rename_i live
      simp only [if_neg live] at missing
      cases missing

theorem store_of_get (found : (store.get k now).1 ≠ none) : (store.get k now).2 = store := by
  unfold IdempotencyStore.get at found ⊢
  split
  · rfl
  · rename_i record held
    rw [held] at found
    split
    · rename_i expired
      simp only [if_pos expired] at found
      exact absurd rfl found
    · rfl

theorem lawful_storeGate {key : Option String}
    {arrive : IdempotencyStore α → Int → Option C × IdempotencyStore α} (looksUp : LooksUp key arrive)
    (record : IdempotencyStore α → C → A → Int → IdempotencyStore α) :
    (storeGate key arrive record).Lawful := by
  cases key with
  | none =>
    exact
      { absent_of_started := fun _ _ _ => rfl
        kept_of_answered := fun _ _ _ => rfl
        absent_of_other := fun _ _ _ => rfl }
  | some k =>
    have here := fun store now => looksUp store now k rfl
    constructor
    · intro store now started
      have missing : (store.get k now).1 = none :=
        by_contra fun found => started ((here store now).2.mpr found)
      change (arrive store now).2.records.has k = false
      rw [(here store now).1]
      exact absent_of_get missing
    · intro store now answered
      change (arrive store now).2.records.has k = store.records.has k
      rw [(here store now).1, store_of_get ((here store now).2.mp answered)]
    · rintro store ⟨use, elsewhere⟩ absent
      change (use.apply store).records.has k = false
      cases use with
      | get key now => exact has_of_within (store.get_within key now) absent
      | set record now => exact has_set_other (elsewhere record now rfl k rfl) absent
      | sweep now => exact has_of_within (store.purgeExpired_within now) absent

end StoreGate

/-! ### The gates -/

section Gates

variable (sha256 : String → List UInt8) (key : IdempotencyKey)

/-- What `res.json` remembers of a request that is passed on. -/
def ContractIdempotency.Verdict.passed : ContractIdempotency.Verdict → Option (String × String)
  | .next scopedKey payloadHash => some (scopedKey, payloadHash)
  | .refuse _ _ | .replay _ _ | .throw => none

def contractGate (req : ContractIdempotency.Request) :=
  storeGate (A := Nat × Json)
    ((ContractIdempotency.computePayloadHash sha256 req.body).bind fun _ =>
      (ContractIdempotency.getUserScopeId req).map fun user =>
        ContractIdempotency.buildScopedKey sha256 user key.text)
    (fun store now =>
      let (verdict, store') := ContractIdempotency.contractCreateIdempotencyMiddleware sha256 store
        { req with idempotencyKey := some key.text } now
      (verdict.passed, store'))
    (fun store record response now =>
      store.set
        { key := record.1
          payloadHash := record.2
          result := ⟨record.2, ⟨response.1, response.2⟩⟩
          createdAt := now } now)

@[inherit_doc ContractIdempotency.Verdict.passed]
def ApiKeyIdempotency.Verdict.passed : ApiKeyIdempotency.Verdict → Option (Option (String × String))
  | .next record => some record
  | .answer _ _ => none

def apiKeyGate (req : ApiKeyIdempotency.Request) :=
  storeGate (A := Nat × Json)
    ((ApiKeyIdempotency.getUserScopeId req).map fun user =>
      ApiKeyIdempotency.buildScopedKey sha256 user key.text req.method req.path)
    (fun store now =>
      let (verdict, store') := ApiKeyIdempotency.apiKeysIdempotencyMiddleware sha256 store
        { req with idempotencyKey := some key.text } now
      (verdict.passed, store'))
    (fun store record response now =>
      match record with
      | none => store
      | some (scopedKey, payloadHash) =>
        store.set
          { key := scopedKey, payloadHash, result := ⟨response.1, response.2⟩, createdAt := now } now)

@[inherit_doc ContractIdempotency.Verdict.passed]
def reputationPassed : Reputation.Verdict → Option (Option (String × String))
  | .next record => some record
  | .answer _ => none

/-- The reputation routes, after the caller and the body were checked. -/
def reputationGate (host : Reputation.Host) (req : Reputation.Request) (user : Auth.User)
    (payload : Reputation.Payload) :=
  storeGate (A := Reputation.Response)
    (if 255 < jsLength key.text ∨ user.id = "" then none
      else some (sha256Hex host.sha256
        (user.id ++ ":" ++ req.route.method ++ ":" ++ req.path ++ ":" ++ trim key.text)))
    (fun store now =>
      let (verdict, store') := Reputation.reputationIdempotencyMiddleware host store
        { req with idempotencyKey := some key.text } user payload now
      (reputationPassed verdict, store'))
    (fun store record response now =>
      match record with
      | none => store
      | some (scopedKey, payloadHash) =>
        store.set { key := scopedKey, payloadHash, result := response, createdAt := now } now)

theorem filter_key : (some key.text).filter (fun text => !isBlank text) = some key.text :=
  Option.filter_some_pos (by rw [key.nonblank]; rfl)

theorem lawful_contractGate (req : ContractIdempotency.Request) :
    (contractGate sha256 key req).Lawful := by
  apply lawful_storeGate
  intro store now k looked
  obtain ⟨hash, hashed, named⟩ := Option.bind_eq_some_iff.mp looked
  obtain ⟨user, caller, rfl⟩ := Option.map_eq_some_iff.mp named
  have middleware : ContractIdempotency.contractCreateIdempotencyMiddleware sha256 store
      { req with idempotencyKey := some key.text } now =
      ContractIdempotency.lookUp store { req with idempotencyKey := some key.text }
        (ContractIdempotency.buildScopedKey sha256 user key.text) hash now := by
    have caller' : ContractIdempotency.getUserScopeId { req with idempotencyKey := some key.text } =
        some user := caller
    have hashed' : ContractIdempotency.computePayloadHash sha256
        (ContractIdempotency.Request.body { req with idempotencyKey := some key.text }) = some hash := hashed
    simp [ContractIdempotency.contractCreateIdempotencyMiddleware, filter_key, caller', hashed']
  simp only [middleware, ContractIdempotency.lookUp]
  rcases store.get (ContractIdempotency.buildScopedKey sha256 user key.text) now with ⟨_ | record, store'⟩
  · simp [ContractIdempotency.Verdict.passed]
  · by_cases other : record.payloadHash ≠ hash
    · simp [other, ContractIdempotency.Verdict.passed]
    · simp [other, ContractIdempotency.Verdict.passed]

theorem lawful_apiKeyGate (req : ApiKeyIdempotency.Request) : (apiKeyGate sha256 key req).Lawful := by
  apply lawful_storeGate
  intro store now k looked
  obtain ⟨user, caller, rfl⟩ := Option.map_eq_some_iff.mp looked
  have caller' : ApiKeyIdempotency.getUserScopeId { req with idempotencyKey := some key.text } =
      some user := caller
  have path : ApiKeyIdempotency.Request.path { req with idempotencyKey := some key.text } = req.path := rfl
  simp only [ApiKeyIdempotency.apiKeysIdempotencyMiddleware, filter_key, caller', path]
  rcases store.get (ApiKeyIdempotency.buildScopedKey sha256 user key.text req.method req.path) now with
    ⟨_ | record, store'⟩
  · simp [ApiKeyIdempotency.Verdict.passed]
  · by_cases other : record.payloadHash ≠ ApiKeyIdempotency.computePayloadHash sha256 req.body
    · simp [other, ApiKeyIdempotency.Verdict.passed]
    · simp [other, ApiKeyIdempotency.Verdict.passed]

theorem lawful_reputationGate (host : Reputation.Host) (req : Reputation.Request) (user : Auth.User)
    (payload : Reputation.Payload) : (reputationGate key host req user payload).Lawful := by
  apply lawful_storeGate
  intro store now k looked
  split at looked
  · cases looked
  · rename_i accepted
    obtain ⟨short, named⟩ := not_or.mp accepted
    obtain rfl := Option.some.inj looked
    have formed : ¬ (isBlank key.text = true ∨ 255 < jsLength key.text) := by
      rw [key.nonblank]
      simp [short]
    simp only [Reputation.reputationIdempotencyMiddleware, if_neg formed, if_neg named]
    rcases store.get _ now with ⟨_ | record, store'⟩
    · simp [reputationPassed]
    · by_cases other : record.payloadHash ≠
          sha256Hex host.sha256 (Json.stringifySorted codeUnitLe payload.body)
      · simp [other, reputationPassed]
      · simp [other, reputationPassed]

/-! ### The middleware with its own map -/

open HeaderIdempotency in
/-- The uses of the map by other requests: the cleanup, and responses under another key. -/
inductive HeaderUse (key : String) where
  | cleanUp (now : Int)
  | capture (call : Capture) (elsewhere : call.key ≠ key) (status : Nat) (body : Json)

@[inherit_doc ContractIdempotency.Verdict.passed]
def HeaderIdempotency.Verdict.passed :
    HeaderIdempotency.Verdict → Option (Option HeaderIdempotency.Capture)
  | .next call => some call
  | .replay _ _ | .conflict => none

open HeaderIdempotency in
def headerGate (req : HeaderIdempotency.Request) :
    Gate HeaderIdempotency.Store (Option Capture) (Nat × Json) (HeaderUse key.text) where
  arrive store now :=
    let (verdict, store') :=
      idempotencyMiddleware sha256 store { req with idempotencyKey := some key.text } now
    (verdict.passed, store')
  record store call response _ :=
    match call with
    | none => store
    | some call => capture store call response.1 response.2
  other store
    | .cleanUp now => dropExpired store now
    | .capture call _ status body => capture store call status body
  held store := store.entries.has key.text

theorem key_ne_empty : key.text ≠ "" := by
  intro empty
  have blank : isBlank "" = true := by decide
  rw [← empty, key.nonblank] at blank
  cases blank

variable (req : HeaderIdempotency.Request)

/-- A request with a key is passed on exactly when the key has no entry after the
cleanup. -/
theorem headerGate_arrive (store : HeaderIdempotency.Store) (now : Int) :
    ((headerGate sha256 key req).arrive store now).2 = HeaderIdempotency.dropExpired store now ∧
      (((headerGate sha256 key req).arrive store now).1 = none ↔
        (HeaderIdempotency.dropExpired store now).entries.has key.text = true) := by
  have keyed : HeaderIdempotency.Request.key { req with idempotencyKey := some key.text } =
      some key.text := Option.filter_some_pos (decide_eq_true (key_ne_empty key))
  simp only [headerGate, HeaderIdempotency.idempotencyMiddleware, keyed, OrderedMap.has]
  cases (HeaderIdempotency.dropExpired store now).entries.get? key.text with
  | none => simp [HeaderIdempotency.Verdict.passed]
  | some existing =>
    by_cases same : existing.requestSig =
        HeaderIdempotency.makeRequestSig sha256 { req with idempotencyKey := some key.text }
    · simp [same, HeaderIdempotency.Verdict.passed]
    · simp [same, HeaderIdempotency.Verdict.passed]

variable {store : HeaderIdempotency.Store}

theorem has_dropExpired {now : Int} {k : String}
    (held : (HeaderIdempotency.dropExpired store now).entries.has k = true) :
    store.entries.has k = true := by
  obtain ⟨stored, found⟩ := Option.isSome_iff_exists.mp held
  rw [OrderedMap.has, (OrderedMap.get?_of_filter found).1]
  rfl

theorem has_capture {call : HeaderIdempotency.Capture} {status : Nat} {body : Json} {k : String}
    (elsewhere : call.key ≠ k)
    (held : (HeaderIdempotency.capture store call status body).entries.has k = true) :
    store.entries.has k = true := by
  obtain ⟨stored, found⟩ := Option.isSome_iff_exists.mp held
  have written := List.mem_of_mem_drop (OrderedMap.get?_eq_some_iff.mp found)
  have before := OrderedMap.get?_eq_some_iff.mpr written
  rw [OrderedMap.get?_set_of_ne _ _ elsewhere.symm] at before
  rw [OrderedMap.has, before]
  rfl

theorem lawful_headerGate : (headerGate sha256 key req).Lawful where
  absent_of_started store now started := by
    obtain ⟨store', passed⟩ := headerGate_arrive sha256 key req store now
    rw [store', ← Bool.not_eq_true]
    exact fun held => started (passed.mpr held)
  kept_of_answered store now answered := by
    obtain ⟨store', passed⟩ := headerGate_arrive sha256 key req store now
    have live := passed.mp answered
    rw [store']
    exact live.trans (has_dropExpired live).symm
  absent_of_other store use absent := by
    rw [← Bool.not_eq_true] at absent ⊢
    intro held
    cases use with
    | cleanUp now => exact absent (has_dropExpired held)
    | capture call elsewhere status body => exact absent (has_capture elsewhere held)

end Gates

/-! ### One start per record -/

/-- Between two starts of the handler behind one of the middlewares, for requests
with one key, user, method, path and body, the record of the key has ended,
exactly when no request is passed on while the handler is at work on another. -/
theorem handler_started_once_iff (sha256 : String → List UInt8) (key : IdempotencyKey) :
    (∀ (req : ContractIdempotency.Request) store events,
      let gate := contractGate sha256 key req
      Once (run gate.step (Gate.start store) events).history ↔
        Along gate.step gate.Alone (Gate.start store) events) ∧
    (∀ (host : Reputation.Host) (req : Reputation.Request) (user : Auth.User)
        (payload : Reputation.Payload) store events,
      let gate := reputationGate key host req user payload
      Once (run gate.step (Gate.start store) events).history ↔
        Along gate.step gate.Alone (Gate.start store) events) ∧
    (∀ (req : ApiKeyIdempotency.Request) store events,
      let gate := apiKeyGate sha256 key req
      Once (run gate.step (Gate.start store) events).history ↔
        Along gate.step gate.Alone (Gate.start store) events) ∧
    ∀ (req : HeaderIdempotency.Request) store events,
      let gate := headerGate sha256 key req
      Once (run gate.step (Gate.start store) events).history ↔
        Along gate.step gate.Alone (Gate.start store) events := by
  refine ⟨fun req store events => ?_, fun host req user payload store events => ?_,
    fun req store events => ?_, fun req store events => ?_⟩
  · exact Gate.once_iff_alone (lawful_contractGate sha256 key req) store events
  · exact Gate.once_iff_alone (lawful_reputationGate key host req user payload) store events
  · exact Gate.once_iff_alone (lawful_apiKeyGate sha256 key req) store events
  · exact Gate.once_iff_alone (lawful_headerGate sha256 key req) store events

theorem not_once_of_two_starts : ¬ Once [.started, .started] := by
  intro once
  have := once [] [] [] rfl
  cases this

/-- Two requests of one user that arrive before the first is answered: each of the
middlewares passes both on. -/
theorem overlapping_requests_start_twice :
    let key : IdempotencyKey := ⟨"key-1", by decide⟩
    let user : ContractIdempotency.User := { id := some "u1" }
    let contract := contractGate utf8Bytes key ⟨.createContract, none, some user, none, .obj []⟩
    let reputation := reputationGate key Reputation.plainHost
      ⟨false, none, .bulk, "/api/v1/reputation/bulk", none, none, .obj []⟩ ⟨"u1", "u1@x", .client⟩ (.bulk [])
    let apiKey := apiKeyGate utf8Bytes key ⟨"POST", "/api/v1/keys", none, some user, none, none⟩
    let header := headerGate utf8Bytes key ⟨"POST", "/api/v1/webhooks", none, .obj []⟩
    ¬ Once (run contract.step (Gate.start .fresh) [.arrive 0, .arrive 0]).history ∧
      ¬ Once (run reputation.step (Gate.start .fresh) [.arrive 0, .arrive 0]).history ∧
      ¬ Once (run apiKey.step (Gate.start .fresh) [.arrive 0, .arrive 0]).history ∧
      ¬ Once (run header.step (Gate.start .fresh) [.arrive 0, .arrive 0]).history :=
  ⟨not_once_of_two_starts, not_once_of_two_starts, not_once_of_two_starts, not_once_of_two_starts⟩

end TalentTrust.Http
