import TalentTrust.Lib.Json
import TalentTrust.Lib.OrderedMap

/-!
`createIdempotencyMiddleware` of `middleware/idempotency.middleware.ts`.

Stored responses are keyed on the `Idempotency-Key` header alone. A request that
meets a stored response is answered with it when its signature, a hash of
method, path and body, is the stored one, and with 409 otherwise; who sends the
request plays no part.
-/

namespace TalentTrust.Http.HeaderIdempotency

open TalentTrust.Lib

structure Stored where
  createdAt : Int
  expiresAt : Int
  requestSig : String
  status : Nat
  body : Json
  deriving DecidableEq

structure Store where
  ttlMs : Int := 5 * 60 * 1000
  max : Nat := 1000
  entries : OrderedMap String Stored
  deriving DecidableEq

def Store.fresh : Store := { entries := OrderedMap.empty }

/-- What the middleware reads of a request. -/
structure Request where
  method : String
  originalUrl : String
  idempotencyKey : Option String
  body : Json
  deriving DecidableEq

/-- The header, unless it is missing or empty. -/
def Request.key (req : Request) : Option String := req.idempotencyKey.filter fun key => key ≠ ""

def makeRequestSig (sha256 : String → List UInt8) (req : Request) : String :=
  sha256Hex sha256 (Json.stringify (.obj
    [("method", .str req.method), ("path", .str req.originalUrl), ("body", req.body)]))

/-- Delete the oldest entries while there are more than `max`. -/
def pruneIfNeeded (store : Store) : Store :=
  { store with entries := store.entries.dropOldest (store.entries.size - store.max) }

/-- What the overridden `res.json` and `res.send` remember of the request. -/
structure Capture where
  key : String
  now : Int
  sig : String
  deriving DecidableEq

/-- How the middleware leaves a request: answered by itself, or passed on, with
`res.json` overridden when there is a key. -/
inductive Verdict where
  | replay (status : Nat) (body : Json)
  | conflict
  | next (capture : Option Capture)
  deriving DecidableEq

/-- The body of the 409 response. -/
def conflictBody : Json :=
  .obj [("error", .obj [("code", .str "idempotency_key_conflict"),
    ("message", .str "Idempotency-Key replay with different payload")])]

/-- The lazy cleanup. -/
def dropExpired (store : Store) (now : Int) : Store :=
  { store with entries := store.entries.filter fun e => now < e.2.expiresAt }

def idempotencyMiddleware (sha256 : String → List UInt8) (store : Store) (req : Request) (now : Int) :
    Verdict × Store :=
  match req.key with
  | none => (.next none, store)
  | some key =>
    let live := dropExpired store now
    let sig := makeRequestSig sha256 req
    match live.entries.get? key with
    | some existing =>
      if existing.requestSig = sig then (.replay existing.status existing.body, live)
      else (.conflict, live)
    | none => (.next (some ⟨key, now, sig⟩), live)

/-- The overridden `res.json`: store the response. `res.send`, which `res.json`
calls, stores the same entry once more. -/
def capture (store : Store) (c : Capture) (status : Nat) (body : Json) : Store :=
  pruneIfNeeded
    { store with
      entries := store.entries.set c.key
        { createdAt := c.now, expiresAt := c.now + store.ttlMs, requestSig := c.sig, status, body } }

/-- `req` meets a live response to a request with its key and signature. -/
def Meets (sha256 : String → List UInt8) (store : Store) (req : Request) (now : Int) : Prop :=
  ∃ key ∈ req.key, ∃ stored ∈ store.entries.get? key,
    now < stored.expiresAt ∧ stored.requestSig = makeRequestSig sha256 req

instance (sha256 : String → List UInt8) (store : Store) (req : Request) (now : Int) :
    Decidable (Meets sha256 store req now) :=
  inferInstanceAs (Decidable (∃ key ∈ req.key, ∃ stored ∈ store.entries.get? key, _ ∧ _))

/-- Only a request that meets its own response is answered from the store. -/
theorem meets_of_replay {sha256 : String → List UInt8} {store : Store} {req : Request} {now : Int}
    {status : Nat} {body : Json}
    (replayed : (idempotencyMiddleware sha256 store req now).1 = .replay status body) :
    Meets sha256 store req now := by
  unfold idempotencyMiddleware at replayed
  split at replayed
  · cases replayed
  · rename_i key keyed
    dsimp only at replayed
    split at replayed
    · rename_i existing found
      split at replayed
      · rename_i same
        obtain ⟨held, live⟩ := OrderedMap.get?_of_filter found
        exact ⟨key, keyed, existing, held, of_decide_eq_true live, same⟩
      · cases replayed
    · cases replayed

end TalentTrust.Http.HeaderIdempotency
