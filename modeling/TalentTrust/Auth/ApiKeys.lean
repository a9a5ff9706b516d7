import TalentTrust.Lib.Run
import TalentTrust.Lib.Text
import TalentTrust.Auth.AuthCache

/-!
API keys (`auth/apiKeys.ts`) over the JSON store (`database/index.ts`).

A process keeps the store in memory, read from the file by the first call that
needs it, and writes all of it back after every change. A call runs until it
waits: for the file to be read, for `loadDatabase` to return, before and during
the write of the file. Each `turn` lets one call run to its next wait, so that a
run is any interleaving of calls, with the clock advancing and the process
restarting in between.

Random values are numbered by draw. A record has the draw of its key, which
determines the stored text `salt:hash` (`storedCredential`); the key itself is
stored nowhere.
-/

namespace TalentTrust.Auth.ApiKeys

open TalentTrust.Lib

/-! ### Credentials -/

/-- What the service takes from its platform. Keys of different draws differ, and
no other key has the salted hash of a drawn one. -/
structure Platform where
  sha256 : String → List UInt8
  pbkdf2 : String → String → List UInt8
  keyBytes : Nat → List UInt8
  saltBytes : Nat → List UInt8
  cacheOptions : AuthCacheOptions
  sha256_injective : Function.Injective sha256
  keyBytes_injective : Function.Injective keyBytes
  eq_of_pbkdf2 : ∀ {k : String} {n : Nat}, pbkdf2 k (toHex (saltBytes n)) =
    pbkdf2 (toHex (keyBytes n)) (toHex (saltBytes n)) → k = toHex (keyBytes n)

variable (p : Platform)

def generateApiKey (draw : Nat) : String := toHex (p.keyBytes draw)

/-- The salt and the hash of the key of a draw. -/
def hashApiKey (draw : Nat) : String × String :=
  let salt := toHex (p.saltBytes draw)
  (salt, toHex (p.pbkdf2 (generateApiKey p draw) salt))

def storedCredential (draw : Nat) : String :=
  (hashApiKey p draw).1 ++ ":" ++ (hashApiKey p draw).2

def computeKeySelector (apiKey : String) : String := sha256Hex p.sha256 apiKey

/-- `/^[a-f0-9]\x7bn\x7d$/i`. -/
def isHex (n : Nat) (cs : List Char) : Bool :=
  cs.length == n && cs.all fun c => (hexDigit? c).isSome

/-- A blank text and one without a colon have one part, and an empty part is not
hexadecimal. -/
def isValidSaltHashFormat (storedCredential : List Char) : Bool :=
  match (trimChars storedCredential).splitOn ':' with
  | [salt, hash] => isHex 32 salt && isHex 128 hash
  | _ => false

def verifyApiKey (apiKey : String) (salt hash : List Char) : Bool :=
  isHex 32 salt && isHex 128 hash && readHex hash == p.pbkdf2 apiKey (String.ofList salt)

/-- The stored text passes the format check, and the key is verified against it. -/
def accepts (apiKey stored : String) : Bool :=
  isValidSaltHashFormat stored.toList &&
    match stored.toList.splitOn ':' with
    | salt :: hash :: _ => verifyApiKey p apiKey salt hash
    | _ => false

variable {p}

theorem generateApiKey_injective : Function.Injective (generateApiKey p) :=
  fun _ _ same => p.keyBytes_injective (toHex_injective same)

theorem computeKeySelector_injective {k l : String}
    (same : computeKeySelector p k = computeKeySelector p l) : k = l :=
  sha256Hex_injective p.sha256_injective same

theorem colon_notMem_toHex (bytes : List UInt8) : ':' ∉ (toHex bytes).toList := by
  have digit : ∀ n < 16, hexChar n ≠ ':' := by decide
  rw [toHex, String.toList_ofList]
  intro mem
  obtain ⟨b, -, mem⟩ := List.mem_flatMap.mp mem
  have small := b.toNat_lt
  simp only [List.mem_cons, List.not_mem_nil, or_false] at mem
  rcases mem with high | low
  · exact digit _ (by omega) high.symm
  · exact digit _ (by omega) low.symm

theorem split_storedCredential (draw : Nat) : (storedCredential p draw).toList.splitOn ':' =
    [(hashApiKey p draw).1.toList, (hashApiKey p draw).2.toList] := by
  have text : (storedCredential p draw).toList =
      [':'].intercalate [(hashApiKey p draw).1.toList, (hashApiKey p draw).2.toList] := by
    simp [storedCredential, List.intercalate]
  have plain : ∀ l ∈ [(hashApiKey p draw).1.toList, (hashApiKey p draw).2.toList], ':' ∉ l := by
    simp only [List.mem_cons, List.not_mem_nil, or_false, forall_eq_or_imp, forall_eq]
    exact ⟨colon_notMem_toHex _, colon_notMem_toHex _⟩
  rw [text, List.splitOn_intercalate ':' plain (List.cons_ne_nil _ _)]

theorem eq_of_accepts {k : String} {draw : Nat} (accepted : accepts p k (storedCredential p draw) = true) :
    k = generateApiKey p draw := by
  rw [accepts, split_storedCredential, Bool.and_eq_true] at accepted
  have verified := accepted.2
  simp only [verifyApiKey, Bool.and_eq_true, beq_iff_eq, String.ofList_toList] at verified
  have hashes : fromHex (hashApiKey p draw).2 = _ := verified.2
  rw [hashApiKey, fromHex_toHex] at hashes
  exact p.eq_of_pbkdf2 hashes.symm

/-! ### The store -/

/-- A record of `api_keys`. The draw stands for `key_hash`. -/
structure ApiKey where
  id : Nat
  name : String
  draw : Nat
  keySelector : Option String
  scope : List String
  createdBy : String
  createdAt : Stamp
  updatedAt : Stamp
  expiresAt : Option Stamp
  lastUsedAt : Option Stamp
  isActive : Bool
  deriving DecidableEq

/-- A selector that is set and not empty. -/
def ApiKey.selector (r : ApiKey) : Option String := r.keySelector.filter (· ≠ "")

def ApiKey.info (r : ApiKey) : ApiKeyInfo where
  id := r.id
  name := r.name
  scope := r.scope
  createdBy := r.createdBy
  createdAt := r.createdAt
  expiresAt := r.expiresAt

/-- A record as it comes back from the file. -/
def ApiKey.toJson (r : ApiKey) : ApiKey :=
  { r with
    createdAt := r.createdAt.toJson
    updatedAt := r.updatedAt.toJson
    expiresAt := r.expiresAt.map Stamp.toJson
    lastUsedAt := r.lastUsedAt.map Stamp.toJson }

abbrev Store := List ApiKey

def getApiKeyBySelector (store : Store) (selector : String) : Option ApiKey :=
  store.find? fun r => r.keySelector = some selector && r.isActive

def getApiKeyById (store : Store) (id : Nat) : Option ApiKey :=
  store.find? fun r => r.id = id

/-- The first active record without a selector that accepts the key. -/
def findLegacyKey (p : Platform) (store : Store) (apiKey : String) : Option ApiKey :=
  (store.filter fun r => r.selector.isNone && r.isActive).find? fun r =>
    accepts p apiKey (storedCredential p r.draw)

/-- `api_keys[index] = …` at the first record of the id; `none` is index -1. -/
def replaceById (id : Nat) (change : ApiKey → ApiKey) : Store → Option Store
  | [] => none
  | r :: store =>
    if r.id = id then some (change r :: store)
    else (replaceById id change store).map (r :: ·)

/-- `new Date() > expires_at`. A date compared with a text is a comparison with
`NaN`. -/
def isExpired (expiresAt : Option Stamp) (now : Int) : Bool :=
  match expiresAt with
  | some (.date ms) => ms < now
  | some (.text _) => false
  | none => false

/-! ### Calls -/

structure ApiKeyRequest where
  name : String
  scope : List String
  createdBy : String
  expiresAt : Option Int
  deriving DecidableEq

/-- What a call is doing, by the database operation it is in. `barred` is set if
the key was revoked or expired when its validation started. A rotation or
deactivation notes the draw it took out of use, a rotation also the new one. -/
inductive Task where
  | finding (apiKey : String) (barred : Bool)
  | scanning (apiKey : String) (barred : Bool)
  | backfilling (apiKey : String) (barred : Bool) (dbKey : ApiKey)
  | touching (apiKey : String) (barred : Bool) (dbKey : ApiKey)
  | expiring (apiKey : String) (barred : Bool) (dbKey : ApiKey)
  | rotateReading (id : Nat)
  | rotating (existingKey : ApiKey) (draws : Option (Nat × Nat))
  | deactivateReading (id : Nat)
  | deactivating (existingKey : ApiKey) (draw : Option Nat)
  | creating (request : ApiKeyRequest) (indexed : Bool) (record : Option ApiKey)
  deriving DecidableEq

/-- How far the database operation is: `loadDatabase` reads the file; it returns
the store at an index; `saveDatabase` prepares the write; it writes a text. -/
inductive Phase where
  | loading
  | ready (d : Nat)
  | saving (d : Nat)
  | writing (d : Nat) (snapshot : Store)
  deriving DecidableEq

inductive Result where
  | validated (info : Option ApiKeyInfo)
  | rotated (created : Option (String × ApiKeyInfo))
  | deactivated (success : Bool)
  | created (apiKey : String) (info : ApiKeyInfo)
  deriving DecidableEq

inductive Call where
  | running (task : Task) (phase : Phase)
  | returned (result : Result)
  deriving DecidableEq

/-- What was issued under a draw. -/
structure Issue where
  expiresAt : Option Int
  createdBy : String
  deriving DecidableEq

structure Answer where
  apiKey : String
  barred : Bool
  info : Option ApiKeyInfo
  deriving DecidableEq

/-- The clock, the stores that were read from the file since the last restart with
the index of the one in use, the file, the cache and the calls of the process;
and, as history, what was issued under each draw, the draws that completed
calls have revoked, and the answers of all validations. -/
structure State where
  now : Int
  stores : List Store
  db : Option Nat
  file : Store
  cache : AuthCache
  calls : List Call
  issued : List Issue
  revoked : List Nat
  answers : List Answer
  deriving DecidableEq

def initial : State := ⟨0, [], none, [], OrderedMap.empty, [], [], [], []⟩

def State.storeAt (s : State) (d : Nat) : Store := s.stores[d]?.getD []

variable (p)

/-- The key was revoked by a call that has returned, or has expired. -/
def State.Barred (s : State) (apiKey : String) : Prop :=
  ∃ draw < s.issued.length, generateApiKey p draw = apiKey ∧
    (draw ∈ s.revoked ∨ ∃ issue ∈ s.issued[draw]?, ∃ ms ∈ issue.expiresAt, ms < s.now)

instance (s : State) (apiKey : String) : Decidable (s.Barred p apiKey) :=
  inferInstanceAs (Decidable (∃ draw < s.issued.length, _ ∧
    (_ ∨ ∃ issue ∈ s.issued[draw]?, ∃ ms ∈ issue.expiresAt, _)))

variable (s : State)

/-- The next database operation of a call, up to its first wait. -/
def State.begin (task : Task) : Call :=
  .running task (match s.db with
    | none => .loading
    | some d => .ready d)

def State.setCall (i : Nat) (c : Call) : State := { s with calls := s.calls.set i c }

def State.openCall (c : Call) : State := { s with calls := s.calls ++ [c] }

def State.answer (i : Nat) (apiKey : String) (barred : Bool) (info : Option ApiKeyInfo) :
    State :=
  { s.setCall i (.returned (.validated info)) with answers := ⟨apiKey, barred, info⟩ :: s.answers }

/-- `validateApiKey` up to its first wait. -/
def validateApiKey (apiKey : String) : State :=
  let barred := decide (s.Barred p apiKey)
  let (cached, cache) := AuthCache.get s.cache (computeKeySelector p apiKey) s.now
  let s := { s with cache := cache }
  match cached with
  | some info =>
    { s.openCall (.returned (.validated (some info))) with
      answers := ⟨apiKey, barred, some info⟩ :: s.answers }
  | none => s.openCall (s.begin (.finding apiKey barred))

/-- The end of `validateApiKey`, after the last use was stored. -/
def checkExpiry (i : Nat) (apiKey : String) (barred : Bool) (dbKey : ApiKey) : State :=
  if isExpired dbKey.expiresAt s.now then s.setCall i (s.begin (.expiring apiKey barred dbKey))
  else
    { s with
      cache := AuthCache.set p.cacheOptions s.cache (computeKeySelector p apiKey) dbKey.info s.now
      }.answer i apiKey barred (some dbKey.info)

def State.issue (issue : Issue) : State := { s with issued := s.issued ++ [issue] }

/-- A call that changed the store at `d` goes on to save it. -/
def State.change (i d : Nat) (store : Store) (task : Task) : State :=
  { s with stores := s.stores.set d store }.setCall i (.running task (.saving d))

/-- The invalidations of a rotation or deactivation. -/
def invalidateKey (cache : AuthCache) (existingKey : ApiKey) : AuthCache :=
  AuthCache.invalidateByUserId
    (match existingKey.selector with
    | none => cache
    | some selector => AuthCache.invalidate cache selector)
    existingKey.createdBy

variable (s : State)

/-- A rotation or deactivation that took the draw out of use returns. -/
def State.revoke (existingKey : ApiKey) (draw : Nat) : State :=
  { s with
    cache := invalidateKey s.cache existingKey
    revoked := draw :: s.revoked }

/-- The record that `createApiKey` stores; one of the time before selectors has none. -/
def newRecord (request : ApiKeyRequest) (indexed : Bool) : ApiKey where
  id := s.issued.length
  name := request.name
  draw := s.issued.length
  keySelector :=
    if indexed then some (computeKeySelector p (generateApiKey p s.issued.length)) else none
  scope := request.scope
  createdBy := request.createdBy
  createdAt := .date s.now
  updatedAt := .date s.now
  expiresAt := request.expiresAt.map Stamp.date
  lastUsedAt := none
  isActive := true

/-- The body of a database operation, on the store that `loadDatabase` returned. -/
def perform (i d : Nat) : Task → State
  | .finding apiKey barred =>
    match getApiKeyBySelector (s.storeAt d) (computeKeySelector p apiKey) with
    | none => s.setCall i (s.begin (.scanning apiKey barred))
    | some dbKey =>
      if accepts p apiKey (storedCredential p dbKey.draw) then
        if dbKey.selector.isNone then s.setCall i (s.begin (.backfilling apiKey barred dbKey))
        else s.setCall i (s.begin (.touching apiKey barred dbKey))
      else s.answer i apiKey barred none
  | .scanning apiKey barred =>
    match findLegacyKey p (s.storeAt d) apiKey with
    | none => s.answer i apiKey barred none
    | some dbKey => s.setCall i (s.begin (.backfilling apiKey barred dbKey))
  | .backfilling apiKey barred dbKey =>
    match replaceById dbKey.id (fun r => { r with
        keySelector := some (computeKeySelector p apiKey)
        updatedAt := .date s.now }) (s.storeAt d) with
    | none => s.setCall i (s.begin (.touching apiKey barred dbKey))
    | some store => s.change i d store (.backfilling apiKey barred dbKey)
  | .touching apiKey barred dbKey =>
    match replaceById dbKey.id (fun r => { r with
        lastUsedAt := some (.date s.now)
        updatedAt := .date s.now }) (s.storeAt d) with
    | none => checkExpiry p s i apiKey barred dbKey
    | some store => s.change i d store (.touching apiKey barred dbKey)
  | .expiring apiKey barred dbKey =>
    match replaceById dbKey.id (fun r => { r with isActive := false, updatedAt := .date s.now })
        (s.storeAt d) with
    | none => s.answer i apiKey barred none
    | some store => s.change i d store (.expiring apiKey barred dbKey)
  | .rotateReading id =>
    match getApiKeyById (s.storeAt d) id with
    | none => s.setCall i (.returned (.rotated none))
    | some existingKey => s.setCall i (s.begin (.rotating existingKey none))
  | .rotating existingKey _ =>
    let draw := s.issued.length
    match getApiKeyById (s.storeAt d) existingKey.id, replaceById existingKey.id (fun r => { r with
        draw := draw
        keySelector := some (computeKeySelector p (generateApiKey p draw))
        updatedAt := .date s.now }) (s.storeAt d) with
    | some r, some store =>
      (s.issue ⟨r.expiresAt.map Stamp.ms, r.createdBy⟩).change i d store
        (.rotating existingKey (some (r.draw, draw)))
    | _, _ => s.setCall i (.returned (.rotated none))
  | .deactivateReading id =>
    match getApiKeyById (s.storeAt d) id with
    | none => s.setCall i (.returned (.deactivated false))
    | some existingKey => s.setCall i (s.begin (.deactivating existingKey none))
  | .deactivating existingKey _ =>
    match getApiKeyById (s.storeAt d) existingKey.id, replaceById existingKey.id (fun r => { r with
        isActive := false
        updatedAt := .date s.now }) (s.storeAt d) with
    | some r, some store => s.change i d store (.deactivating existingKey (some r.draw))
    | _, _ => s.setCall i (.returned (.deactivated false))
  | .creating request indexed _ =>
    let record := newRecord p s request indexed
    (s.issue ⟨request.expiresAt, request.createdBy⟩).change i d (s.storeAt d ++ [record])
      (.creating request indexed (some record))

/-- The file is written, and the call goes on behind the database operation. -/
def finish (i d : Nat) : Task → State
  | .backfilling apiKey barred dbKey => s.setCall i (s.begin (.touching apiKey barred dbKey))
  | .touching apiKey barred dbKey => checkExpiry p s i apiKey barred dbKey
  | .expiring apiKey barred _ => s.answer i apiKey barred none
  | .rotating existingKey (some (old, new)) =>
    (s.revoke existingKey old).setCall i (.returned (.rotated
      ((getApiKeyById (s.storeAt d) existingKey.id).map fun r => (generateApiKey p new, r.info))))
  | .deactivating existingKey (some draw) =>
    (s.revoke existingKey draw).setCall i (.returned (.deactivated true))
  | .creating request _ (some record) =>
    { s with cache := AuthCache.invalidateByUserId s.cache request.createdBy
      }.setCall i (.returned (.created (generateApiKey p record.draw) record.info))
  -- No other operation writes the file.
  | _ => s

/-- The call at `i` runs to its next wait. -/
def turn (i : Nat) : State :=
  match s.calls[i]? with
  | some (.running task .loading) =>
    { s with stores := s.stores ++ [s.file], db := some s.stores.length
      }.setCall i (.running task (.ready s.stores.length))
  | some (.running task (.ready d)) => perform p s i d task
  | some (.running task (.saving d)) =>
    s.setCall i (.running task (.writing d (s.db.elim [] s.storeAt)))
  | some (.running task (.writing d snapshot)) =>
    finish p { s with file := snapshot.map ApiKey.toJson } i d task
  | _ => s

def Call.isWriting : Call → Bool
  | .running _ (.writing _ _) => true
  | _ => false

inductive Event where
  | tick (ms : Nat)
  | create (request : ApiKeyRequest)
  /-- A key of the time before selectors. -/
  | createLegacy (request : ApiKeyRequest)
  | validate (apiKey : String)
  | rotate (id : Nat)
  | deactivate (id : Nat)
  | turn (i : Nat)
  /-- A restart; one during a write may leave a file that is not JSON, which is
  read as an empty store. -/
  | restart (torn : Bool)
  deriving DecidableEq

def step : Event → State
  | .tick ms => { s with now := s.now + ms }
  | .create request => s.openCall (s.begin (.creating request true none))
  | .createLegacy request => s.openCall (s.begin (.creating request false none))
  | .validate apiKey => validateApiKey p s apiKey
  | .rotate id => s.openCall (s.begin (.rotateReading id))
  | .deactivate id => s.openCall (s.begin (.deactivateReading id))
  | .turn i => turn p s i
  | .restart torn =>
    { s with
      stores := []
      db := none
      file := if torn && s.calls.any Call.isWriting then [] else s.file
      cache := OrderedMap.empty
      calls := [] }

end TalentTrust.Auth.ApiKeys
