import TalentTrust.Lib.Run
import TalentTrust.Lib.Json
import TalentTrust.Http.IdempotencyStore

/-!
`contractCreateIdempotencyMiddleware` in front of the seven contract and
milestone routes that mount it.

The middleware answers from the store when it holds a record under the hash of
`user:key` whose payload hash is that of the body. Neither hash covers the
method or the path, so on routes that name their target in the path a stored
response can answer a request for another target
(`replay_answers_other_contract`). The two milestone routes that validate only
the path parameters leave `req.body` undefined, and hashing it throws.

A run interleaves arriving requests, responses of the handlers behind the
middleware, and sweeps of the store. `writers` is history: it remembers which
request last stored a response under each key, and no step reads it.
-/

namespace TalentTrust.Http.ContractIdempotency

open TalentTrust.Lib

/-! ### Requests -/

inductive Method where
  | post
  | patch
  | delete
  deriving DecidableEq, Repr

/-- The routes of `contracts.routes.ts` that mount the middleware. -/
inductive Route where
  | createMilestone (id : String)
  | restoreMilestone (id milestoneId : String)
  | deleteMilestone (id milestoneId : String)
  | createContract
  | bulkContracts
  | updateContract (id : String)
  | deleteContract (id : String)
  deriving DecidableEq

def Route.method : Route → Method
  | .createMilestone _ | .restoreMilestone _ _ | .createContract | .bulkContracts => .post
  | .updateContract _ => .patch
  | .deleteMilestone _ _ | .deleteContract _ => .delete

def Route.path : Route → String
  | .createMilestone id => "/api/v1/contracts/" ++ id ++ "/milestones"
  | .restoreMilestone id milestoneId =>
    "/api/v1/contracts/" ++ id ++ "/milestones/" ++ milestoneId ++ "/restore"
  | .deleteMilestone id milestoneId => "/api/v1/contracts/" ++ id ++ "/milestones/" ++ milestoneId
  | .createContract => "/api/v1/contracts"
  | .bulkContracts => "/api/v1/contracts/bulk"
  | .updateContract id | .deleteContract id => "/api/v1/contracts/" ++ id

/-- `req.user`, with the three fields that may name the user. -/
structure User where
  id : Option String
  userId : Option String := none
  sub : Option String := none
  deriving DecidableEq

/-- A request when it reaches the middleware. `payload` is the parsed body,
after `validateRequest` where the route has it. -/
structure Request where
  route : Route
  idempotencyKey : Option String
  user : Option User
  requestId : Option String
  payload : Json
  deriving DecidableEq

/-- `req.body`. `validateParams` replaces it by the `body` field of what its
schema returns, and that schema has only `params`. -/
def Request.body (req : Request) : Option Json :=
  match req.route with
  | .restoreMilestone _ _ | .deleteMilestone _ _ => none
  | _ => some req.payload

/-! ### The middleware -/

/-- `stableJsonStringify`; `JSON.stringify(undefined)` is `undefined`. -/
def stableJsonStringify (value : Option Json) : Option String :=
  value.map (Json.stringifySorted codeUnitLe)

def getUserScopeId (req : Request) : Option String :=
  req.user.bind fun user => user.id.or (user.userId.or user.sub)

def buildScopedKey (sha256 : String → List UInt8) (userScopeId idempotencyKey : String) : String :=
  sha256Hex sha256 (userScopeId ++ ":" ++ trim idempotencyKey)

/-- `computePayloadHash`, which throws on an undefined body: the digest refuses
anything that is not text. -/
def computePayloadHash (sha256 : String → List UInt8) (body : Option Json) : Option String :=
  (stableJsonStringify body).map (sha256Hex sha256)

structure StoredResponse where
  statusCode : Nat
  body : Json
  deriving DecidableEq

structure StoredIdempotency where
  payloadHash : String
  result : StoredResponse
  deriving DecidableEq

abbrev Store := IdempotencyStore StoredIdempotency

/-- How the middleware leaves a request. -/
inductive Verdict where
  | refuse (status : Nat) (body : Json)
  | replay (status : Nat) (body : Json)
  /-- The promise rejects; nothing is sent and no handler runs. -/
  | throw
  /-- `next()`, with `res.json` set to store the response under the key. -/
  | next (scopedKey payloadHash : String)
  deriving DecidableEq

def errorBody (req : Request) (code message : String) : Json :=
  .obj [("error", .obj [("code", .str code), ("message", .str message),
    ("requestId", .str (req.requestId.getD "unknown"))])]

/-- The part of the middleware that looks the scoped key up. -/
def lookUp (store : Store) (req : Request) (scopedKey currentPayloadHash : String) (now : Int) :
    Verdict × Store :=
  match store.get scopedKey now with
  | (some existing, store') =>
    if existing.payloadHash ≠ currentPayloadHash then
      (.refuse 409 (errorBody req "conflict"
        "Idempotency-Key was reused with a different request body"), store')
    else
      (.replay existing.result.result.statusCode existing.result.result.body, store')
  | (none, store') => (.next scopedKey currentPayloadHash, store')

def contractCreateIdempotencyMiddleware (sha256 : String → List UInt8) (store : Store)
    (req : Request) (now : Int) : Verdict × Store :=
  match req.idempotencyKey.filter fun key => !isBlank key with
  | none => (.refuse 400 (errorBody req "bad_request" "Idempotency-Key header is required"), store)
  | some key =>
    match getUserScopeId req with
    | none =>
      (.refuse 401 (errorBody req "unauthorized"
        "Authentication required for idempotent contract creation"), store)
    | some userScopeId =>
      match computePayloadHash sha256 req.body with
      | none => (.throw, store)
      | some payloadHash =>
        lookUp store req (buildScopedKey sha256 userScopeId key) payloadHash now

/-! ### Runs -/

/-- How far a request has come. -/
inductive Progress where
  | refused (status : Nat) (body : Json)
  | replayed (status : Nat) (body : Json)
  | threw
  | handling (scopedKey payloadHash : String)
  | answered (status : Nat) (body : Json)
  deriving DecidableEq

def Verdict.progress : Verdict → Progress
  | .refuse status body => .refused status body
  | .replay status body => .replayed status body
  | .throw => .threw
  | .next scopedKey payloadHash => .handling scopedKey payloadHash

structure Exchange where
  request : Request
  progress : Progress
  deriving DecidableEq

structure Server where
  store : Store
  exchanges : List Exchange
  writers : OrderedMap String Nat
  deriving DecidableEq

def Server.initial : Server := ⟨.fresh, [], .empty⟩

inductive Event where
  | arrive (req : Request) (now : Int)
  /-- What stands behind the middleware calls `res.json` on request `i`. -/
  | respond (i : Nat) (status : Nat) (body : Json) (now : Int)
  | sweep (now : Int)
  deriving DecidableEq

def step (sha256 : String → List UInt8) (s : Server) : Event → Server
  | .arrive req now =>
    let (verdict, store) := contractCreateIdempotencyMiddleware sha256 s.store req now
    { s with store, exchanges := s.exchanges ++ [⟨req, verdict.progress⟩] }
  | .respond i status body now =>
    match s.exchanges[i]? with
    | some ⟨req, .handling scopedKey payloadHash⟩ =>
      { store := s.store.set
          { key := scopedKey
            payloadHash
            result := ⟨payloadHash, ⟨status, body⟩⟩
            createdAt := now } now
        exchanges := s.exchanges.set i ⟨req, .answered status body⟩
        writers := s.writers.set scopedKey i }
    | _ => s
  | .sweep now => { s with store := s.store.purgeExpired now }

/-! ### The property and the condition -/

/-- The trimmed header. -/
def Request.key (req : Request) : Option String := req.idempotencyKey.map trim

/-- `a` and `b` come from one user and go to one method and path. -/
structure SameTarget (a b : Request) : Prop where
  user : getUserScopeId a = getUserScopeId b
  method : a.route.method = b.route.method
  path : a.route.path = b.route.path

instance (a b : Request) : Decidable (SameTarget a b) :=
  decidable_of_iff (_ ∧ _ ∧ _)
    ⟨fun h => ⟨h.1, h.2.1, h.2.2⟩, fun h => ⟨h.user, h.method, h.path⟩⟩

/-- `a` and `b` ask for the same operation. Bodies are equal as JSON values:
the order of the keys of an object does not matter. -/
structure SameOperation (a b : Request) : Prop extends SameTarget a b where
  key : a.key = b.key
  body : a.body.map (Json.sortKeys codeUnitLe) = b.body.map (Json.sortKeys codeUnitLe)

instance (a b : Request) : Decidable (SameOperation a b) :=
  decidable_of_iff (SameTarget a b ∧ _ ∧ _)
    ⟨fun h => { h.1 with key := h.2.1, body := h.2.2 }, fun h => ⟨h.toSameTarget, h.key, h.body⟩⟩

/-- Among the first `j` requests, one that asks for the same operation as `req`
was answered with this status and body. -/
def AnsweredBefore (s : Server) (j : Nat) (req : Request) (status : Nat) (body : Json) : Prop :=
  ∃ i < j, ∃ e ∈ s.exchanges[i]?, e.progress = .answered status body ∧ SameOperation e.request req

instance (s : Server) (j : Nat) (req : Request) (status : Nat) (body : Json) :
    Decidable (AnsweredBefore s j req status body) :=
  inferInstanceAs (Decidable (∃ i < j, ∃ e ∈ s.exchanges[i]?, _ ∧ _))

/-- What a request's progress may be: a replay repeats the answer to an earlier
request for the same operation, and any other request is with its handler, was
answered by it, or got an error response. -/
def Sound (s : Server) (j : Nat) (e : Exchange) : Prop :=
  match e.progress with
  | .replayed status body => AnsweredBefore s j e.request status body
  | .refused status _ => 400 ≤ status
  | .threw => False
  | .handling _ _ | .answered _ _ => True

instance (s : Server) (j : Nat) : (e : Exchange) → Decidable (Sound s j e)
  | ⟨req, .replayed status body⟩ => inferInstanceAs (Decidable (AnsweredBefore s j req status body))
  | ⟨_, .refused status _⟩ => inferInstanceAs (Decidable (400 ≤ status))
  | ⟨_, .threw⟩ => inferInstanceAs (Decidable False)
  | ⟨_, .handling _ _⟩ | ⟨_, .answered _ _⟩ => inferInstanceAs (Decidable True)

/-- Replay never substitutes for another operation. -/
def NoSubstitution (s : Server) : Prop := ∀ j e, s.exchanges[j]? = some e → Sound s j e

/-- The key the middleware looks up, if it comes to that. -/
def Request.scopedKey? (sha256 : String → List UInt8) (req : Request) : Option String :=
  (req.idempotencyKey.filter fun key => !isBlank key).bind fun key =>
    (getUserScopeId req).map fun user => buildScopedKey sha256 user key

/-- An arriving request that is looked up has a body, and if it finds a live
record with its payload hash, the request that stored the record came from the
same user and went to the same method and path. -/
def OwnRecord (sha256 : String → List UInt8) (s : Server) : Event → Prop
  | .arrive req now =>
    ∀ k ∈ req.scopedKey? sha256, req.body ≠ none ∧
      ∀ record ∈ (s.store.get k now).1,
        some record.payloadHash = computePayloadHash sha256 req.body →
          ∃ i ∈ s.writers.get? k, ∃ e ∈ s.exchanges[i]?, SameTarget e.request req
  | .respond _ _ _ _ | .sweep _ => True

instance (sha256 : String → List UInt8) (s : Server) : (e : Event) → Decidable (OwnRecord sha256 s e)
  | .arrive req now => inferInstanceAs (Decidable (∀ k ∈ req.scopedKey? sha256, _ ∧
      ∀ record ∈ (s.store.get k now).1, _ → ∃ i ∈ s.writers.get? k, ∃ e ∈ s.exchanges[i]?, _))
  | .respond _ _ _ _ | .sweep _ => inferInstanceAs (Decidable True)

/-! ### What the middleware decides -/

/-- Why the middleware left a request as it did. -/
def Verdict.Explained (sha256 : String → List UInt8) (store : Store) (req : Request) (now : Int) :
    Verdict → Prop
  | .refuse status _ => 400 ≤ status
  | .replay status body => ∃ k record, req.scopedKey? sha256 = some k ∧
      (store.get k now).1 = some record ∧
      computePayloadHash sha256 req.body = some record.payloadHash ∧
      status = record.result.result.statusCode ∧ body = record.result.result.body
  | .throw => (∃ k, req.scopedKey? sha256 = some k) ∧ req.body = none
  | .next scopedKey payloadHash => req.scopedKey? sha256 = some scopedKey ∧
      computePayloadHash sha256 req.body = some payloadHash

section Middleware

variable (sha256 : String → List UInt8) {req : Request}

theorem scopedKey?_eq {key user : String}
    (header : (req.idempotencyKey.filter fun key => !isBlank key) = some key)
    (scope : getUserScopeId req = some user) :
    req.scopedKey? sha256 = some (buildScopedKey sha256 user key) := by
  rw [Request.scopedKey?, header, scope]
  rfl

theorem lookUp_explained (store : Store) {k hash : String} (now : Int)
    (keyed : req.scopedKey? sha256 = some k) (hashed : computePayloadHash sha256 req.body = some hash) :
    (lookUp store req k hash now).1.Explained sha256 store req now ∧
      (lookUp store req k hash now).2.Within store := by
  have within := store.get_within k now
  unfold lookUp
  split
  · rename_i existing store' found
    rw [found] at within
    split
    · exact ⟨(by decide : 400 ≤ 409), within⟩
    · rename_i same
      rw [not_not] at same
      exact ⟨⟨k, existing, keyed, by rw [found], by rw [hashed, same], rfl, rfl⟩, within⟩
  · rename_i store' found
    rw [found] at within
    exact ⟨⟨keyed, hashed⟩, within⟩

theorem computePayloadHash_eq_none {body : Option Json}
    (fails : computePayloadHash sha256 body = none) : body = none := by
  simpa [computePayloadHash, stableJsonStringify] using fails

theorem middleware_explained (store : Store) (req : Request) (now : Int) :
    (contractCreateIdempotencyMiddleware sha256 store req now).1.Explained sha256 store req now ∧
      (contractCreateIdempotencyMiddleware sha256 store req now).2.Within store := by
  have same := IdempotencyStore.within_refl store
  unfold contractCreateIdempotencyMiddleware
  split
  · exact ⟨(by decide : 400 ≤ 400), same⟩
  · rename_i key header
    split
    · exact ⟨(by decide : 400 ≤ 401), same⟩
    · rename_i user scope
      have keyed := scopedKey?_eq sha256 header scope
      split
      · rename_i fails
        exact ⟨⟨⟨_, keyed⟩, computePayloadHash_eq_none sha256 fails⟩, same⟩
      · rename_i hash hashed
        exact lookUp_explained sha256 store now keyed hashed

end Middleware

/-! ### What equal hashes say -/

section Hashes

variable {sha256 : String → List UInt8} (inj : Function.Injective sha256)

include inj

theorem body_eq_of_payloadHash {a b : Option Json}
    (same : computePayloadHash sha256 a = computePayloadHash sha256 b) :
    a.map (Json.sortKeys codeUnitLe) = b.map (Json.sortKeys codeUnitLe) := by
  cases a with
  | none =>
    have missing := computePayloadHash_eq_none sha256 same.symm
    rw [missing]
  | some v =>
    cases b with
    | none => simp [computePayloadHash, stableJsonStringify] at same
    | some w =>
      have texts : v.stringifySorted codeUnitLe = w.stringifySorted codeUnitLe :=
        sha256Hex_injective inj (Option.some.inj same)
      rw [Option.map_some, Option.map_some, Json.stringify_injective texts]

theorem key_eq_of_scopedKey {a b : Request} {k : String} (user : getUserScopeId a = getUserScopeId b)
    (keyA : a.scopedKey? sha256 = some k) (keyB : b.scopedKey? sha256 = some k) : a.key = b.key := by
  simp only [Request.scopedKey?, Option.bind_eq_some_iff, Option.map_eq_some_iff,
    Option.filter_eq_some_iff] at keyA keyB
  obtain ⟨headerA, ⟨hasA, -⟩, userA, scopeA, rfl⟩ := keyA
  obtain ⟨headerB, ⟨hasB, -⟩, userB, scopeB, same⟩ := keyB
  have users : userB = userA := by
    rw [user, scopeB] at scopeA
    exact Option.some.inj scopeA
  have texts := sha256Hex_injective inj same
  rw [users, String.append_right_inj] at texts
  rw [Request.key, Request.key, hasA, hasB, Option.map_some, Option.map_some, texts]

theorem sameOperation_of_hashes {a b : Request} {k : String} (target : SameTarget a b)
    (keyA : a.scopedKey? sha256 = some k) (keyB : b.scopedKey? sha256 = some k)
    (bodies : computePayloadHash sha256 a.body = computePayloadHash sha256 b.body) :
    SameOperation a b where
  toSameTarget := target
  key := key_eq_of_scopedKey inj target.user keyA keyB
  body := body_eq_of_payloadHash inj bodies

end Hashes

/-! ### The invariant -/

variable (sha256 : String → List UInt8)

/-- The record under `k` is the response given to the request that last wrote
under `k`, and carries the payload hash of that request. -/
def Traced (s : Server) (k : String) (record : IdempotencyRecord StoredIdempotency) : Prop :=
  ∃ i e, s.writers.get? k = some i ∧ s.exchanges[i]? = some e ∧
    e.progress = .answered record.result.result.statusCode record.result.result.body ∧
    e.request.scopedKey? sha256 = some k ∧
    computePayloadHash sha256 e.request.body = some record.payloadHash

structure Consistent (s : Server) : Prop where
  records : ∀ k record, s.store.records.get? k = some record → Traced sha256 s k record
  handling : ∀ e ∈ s.exchanges, ∀ k hash, e.progress = .handling k hash →
    e.request.scopedKey? sha256 = some k ∧ computePayloadHash sha256 e.request.body = some hash
  sound : NoSubstitution s

theorem consistent_initial : Consistent sha256 Server.initial where
  records := by intro k record held; cases held
  handling := by intro e mem; cases mem
  sound := by intro j e found; cases found

/-- Every answered exchange of `old` stands unchanged in `new`. -/
def KeepsAnswers (old new : List Exchange) : Prop :=
  ∀ (i : Nat) (e : Exchange) (status : Nat) (body : Json), old[i]? = some e →
    e.progress = .answered status body → new[i]? = some e

variable {s s' : Server}

theorem Sound.mono {j : Nat} {e : Exchange}
    (keeps : KeepsAnswers s.exchanges s'.exchanges) (sound : Sound s j e) : Sound s' j e := by
  obtain ⟨req, progress⟩ := e
  cases progress with
  | replayed status body =>
    obtain ⟨i, earlier, e', found, answered, same⟩ := sound
    exact ⟨i, earlier, e', keeps i e' status body found answered, answered, same⟩
  | _ => exact sound

variable {sha256 : String → List UInt8}

/-- A record stays traced as long as answers stay and its key has the same writer. -/
theorem Traced.mono {k : String} {record : IdempotencyRecord StoredIdempotency}
    (keeps : KeepsAnswers s.exchanges s'.exchanges) (writers : s'.writers.get? k = s.writers.get? k)
    (traced : Traced sha256 s k record) : Traced sha256 s' k record := by
  obtain ⟨i, e, writer, stored, answered, rest⟩ := traced
  exact ⟨i, e, writers.trans writer, keeps i e _ _ stored answered, answered, rest⟩

variable (inj : Function.Injective sha256) (inv : Consistent sha256 s)

include inj inv

theorem sound_of_explained {req : Request} {now : Int}
    {verdict : Verdict} (own : OwnRecord sha256 s (.arrive req now))
    (explained : verdict.Explained sha256 s.store req now) :
    Sound s s.exchanges.length ⟨req, verdict.progress⟩ := by
  cases verdict with
  | refuse status body => exact explained
  | next k hash => trivial
  | throw =>
    obtain ⟨⟨k, keyed⟩, missing⟩ := explained
    exact absurd missing (own k keyed).1
  | replay status body =>
    obtain ⟨k, record, keyed, found, hashed, rfl, rfl⟩ := explained
    obtain ⟨i, e, writer, stored, answered, keyE, hashE⟩ :=
      inv.records k record (IdempotencyStore.records_of_get found)
    obtain ⟨i', writer', e', stored', target⟩ := (own k keyed).2 record found hashed.symm
    rw [writer] at writer'
    cases writer'
    rw [stored] at stored'
    cases stored'
    exact ⟨i, (List.getElem?_eq_some_iff.mp stored).1, e, stored, answered,
      sameOperation_of_hashes inj target keyE keyed (hashE.trans hashed.symm)⟩

theorem consistent_arrive {req : Request} {now : Int} (own : OwnRecord sha256 s (.arrive req now)) :
    Consistent sha256 (step sha256 s (.arrive req now)) := by
  obtain ⟨explained, within⟩ := middleware_explained sha256 s.store req now
  simp only [step]
  generalize contractCreateIdempotencyMiddleware sha256 s.store req now = out at explained within
  obtain ⟨verdict, store⟩ := out
  have keeps : KeepsAnswers s.exchanges (s.exchanges ++ [⟨req, verdict.progress⟩]) := by
    intro i e _ _ found _
    exact (List.getElem?_append_left (List.getElem?_eq_some_iff.mp found).1).trans found
  refine ⟨fun k record held => ?_, fun e mem k hash pending => ?_, fun j e found => ?_⟩
  · exact (inv.records k record (within k record held)).mono keeps rfl
  · rcases List.mem_append.mp mem with mem | mem
    · exact inv.handling e mem k hash pending
    · cases List.mem_singleton.mp mem
      cases verdict with
      | next k' hash' => cases pending; exact explained
      | _ => cases pending
  · refine Sound.mono keeps ?_
    rcases Nat.lt_trichotomy j s.exchanges.length with before | rfl | after
    · rw [List.getElem?_append_left before] at found
      exact inv.sound j e found
    · rw [List.getElem?_append_right (Nat.le_refl _), Nat.sub_self] at found
      cases found
      exact sound_of_explained inj inv own explained
    · rw [List.getElem?_eq_none (by simp; omega)] at found
      cases found

omit inj inv

theorem consistent_respond (i status : Nat) (body : Json) (now : Int) (inv : Consistent sha256 s) :
    Consistent sha256 (step sha256 s (.respond i status body now)) := by
  simp only [step]
  split
  · rename_i req k hash pending
    have bound := (List.getElem?_eq_some_iff.mp pending).1
    obtain ⟨keyed, hashed⟩ := inv.handling _ (List.mem_of_getElem? pending) k hash rfl
    -- The request answered now was with its handler, so it is none of the earlier answers.
    have keeps : KeepsAnswers s.exchanges (s.exchanges.set i ⟨req, .answered status body⟩) := by
      intro n e _ _ found answered
      have other : i ≠ n := by
        rintro rfl
        rw [pending] at found
        cases found
        cases answered
      rw [List.getElem?_set_ne other, found]
    refine ⟨fun k' record held => ?_, fun e mem k' hash' open' => ?_, fun j e found => ?_⟩
    · rcases IdempotencyStore.records_set held with ⟨rfl, samePayload, sameResult⟩ | ⟨other, held⟩
      · refine ⟨i, ⟨req, .answered status body⟩, OrderedMap.get?_set_self _ _ _,
          List.getElem?_set_self bound, ?_, keyed, ?_⟩
        · rw [sameResult]
        · rw [samePayload, hashed]
      · exact (inv.records k' record held).mono keeps (OrderedMap.get?_set_of_ne _ _ other)
    · rcases List.mem_or_eq_of_mem_set mem with mem | rfl
      · exact inv.handling e mem k' hash' open'
      · cases open'
    · refine Sound.mono keeps ?_
      by_cases same : i = j
      · subst same
        rw [List.getElem?_set_self bound] at found
        cases found
        trivial
      · rw [List.getElem?_set_ne same] at found
        exact inv.sound j e found
  · exact inv

theorem consistent_sweep (now : Int) (inv : Consistent sha256 s) :
    Consistent sha256 (step sha256 s (.sweep now)) where
  records := fun k record held =>
    inv.records k record (IdempotencyStore.purgeExpired_within s.store now k record held)
  __ := inv

theorem consistent_step (inj : Function.Injective sha256) (s : Server) (e : Event)
    (inv : Consistent sha256 s) (own : OwnRecord sha256 s e) :
    Consistent sha256 (step sha256 s e) := by
  cases e with
  | arrive req now => exact consistent_arrive inj inv own
  | respond i status body now => exact consistent_respond i status body now inv
  | sweep now => exact consistent_sweep now inv

/-! ### The main result -/

/-- In every run in which a request only meets records of its own user, method
and path, and every request that is looked up has a body, replay never
substitutes for another operation. -/
theorem replay_repeats_same_operation (sha256 : String → List UInt8)
    (inj : Function.Injective sha256) (events : List Event)
    (own : Along (step sha256) (OwnRecord sha256) Server.initial events) :
    NoSubstitution (run (step sha256) Server.initial events) :=
  (own.invariant (consistent_step inj) (consistent_initial sha256)).sound

def requestTo (route : Route) (key : String) (payload : Json) : Request where
  route
  idempotencyKey := some key
  user := some { id := some "u1" }
  requestId := some "r1"
  payload

theorem replay_repeats_same_operation_create :
    Along (step utf8Bytes) (OwnRecord utf8Bytes) Server.initial
      [.arrive (requestTo .createContract "k1" (.obj [("title", .str "Logo"), ("budget", .null)])) 0,
        .respond 0 201 (.str "c1") 5,
        .arrive (requestTo .createContract " k1 " (.obj [("budget", .null), ("title", .str "Logo")])) 9] ∧
    NoSubstitution (run (step utf8Bytes) Server.initial
      [.arrive (requestTo .createContract "k1" (.obj [("title", .str "Logo"), ("budget", .null)])) 0,
        .respond 0 201 (.str "c1") 5,
        .arrive (requestTo .createContract " k1 " (.obj [("budget", .null), ("title", .str "Logo")])) 9]) :=
  have own : Along (step utf8Bytes) (OwnRecord utf8Bytes) Server.initial
      [.arrive (requestTo .createContract "k1" (.obj [("title", .str "Logo"), ("budget", .null)])) 0,
        .respond 0 201 (.str "c1") 5,
        .arrive (requestTo .createContract " k1 " (.obj [("budget", .null), ("title", .str "Logo")])) 9] := by
    decide +kernel
  ⟨own, replay_repeats_same_operation utf8Bytes utf8Bytes_injective _ own⟩

/-- Deleting contract `c2` with the key of an earlier deletion of `c1` is
answered from the store: `c2` is never deleted. -/
theorem replay_answers_other_contract :
    ¬ NoSubstitution (run (step utf8Bytes) Server.initial
      [.arrive (requestTo (.deleteContract "c1") "k1" (.obj [])) 0,
        .respond 0 200 (.obj [("status", .str "success")]) 5,
        .arrive (requestTo (.deleteContract "c2") "k1" (.obj [])) 9]) := by
  intro sound
  have second : (run (step utf8Bytes) Server.initial
      [.arrive (requestTo (.deleteContract "c1") "k1" (.obj [])) 0,
        .respond 0 200 (.obj [("status", .str "success")]) 5,
        .arrive (requestTo (.deleteContract "c2") "k1" (.obj [])) 9]).exchanges[1]? =
      some ⟨requestTo (.deleteContract "c2") "k1" (.obj []),
        .replayed 200 (.obj [("status", .str "success")])⟩ := by decide +kernel
  exact absurd (sound 1 _ second) (by decide +kernel)

end TalentTrust.Http.ContractIdempotency
