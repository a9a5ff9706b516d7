import TalentTrust.Lib.OrderedMap
import TalentTrust.Lib.Run
import TalentTrust.Lib.Text

/-!
The two bucket stores of `rateLimit.ts`, in exact rational arithmetic.

`InMemoryBucketStore` keeps a bucket for ever. The Lua script of
`RedisBucketStore` keeps it for a time to live after each request and starts
with a full bucket when it is gone. The time to live is twice what an empty
bucket needs to fill up, so a bucket that Redis has forgotten is one that memory
would have full (`refill_of_expired`), and both stores grant the same requests
(`redis_grants_eq_memory`).
-/

namespace TalentTrust.RateLimit

open TalentTrust.Lib

/-- `capacity` and `refillRatePerSec`. -/
structure BucketConfig where
  capacity : ℚ
  refillRatePerSec : ℚ

/-- A call `consumeToken(providerId, …)` at a time in milliseconds. -/
structure Request where
  providerId : String
  now : ℚ

section

variable (sha256 : String → List UInt8)

def hashKey (raw : String) : String := sha256Hex sha256 raw

/-! ### In memory -/

/-- An entry of `RateLimitStore.tokenBuckets`, apart from its queue. -/
structure TokenBucketEntry where
  tokens : ℚ
  lastRefillMs : ℚ

/-- The bucket after the refill at the beginning of `consumeToken`. -/
def refill (config : BucketConfig) (now : ℚ) : Option TokenBucketEntry → TokenBucketEntry
  | none => ⟨config.capacity, now⟩
  | some bucket =>
    let elapsedMs := now - bucket.lastRefillMs
    if 0 < elapsedMs then
      let refilled := elapsedMs / 1000 * config.refillRatePerSec
      ⟨min config.capacity (bucket.tokens + refilled), now⟩
    else bucket

def consumeToken (config : BucketConfig) (buckets : OrderedMap String TokenBucketEntry)
    (request : Request) : Bool × OrderedMap String TokenBucketEntry :=
  let key := hashKey sha256 request.providerId
  let bucket := refill config request.now (buckets.get? key)
  if 1 ≤ bucket.tokens then (true, buckets.set key { bucket with tokens := bucket.tokens - 1 })
  else (false, buckets.set key bucket)

/-! ### In Redis -/

namespace Redis

/-- The hash under a key, and the time at which the key expires. -/
structure Hash where
  tokens : ℚ
  lastRefill : ℚ
  expireAt : ℚ

abbrev Database := OrderedMap String Hash

/-- `HMGET`: a key that has expired is gone. -/
def hmget (db : Database) (key : String) (now : ℚ) : Option Hash :=
  (db.get? key).filter fun hash => now < hash.expireAt

variable (config : BucketConfig)

/-- `math.max(60, math.ceil((capacity / refillRate) * 2))`, in seconds. -/
def ttl : ℤ := max 60 ⌈config.capacity / config.refillRatePerSec * 2⌉

/-- The tokens and the time of the last refill, once the script has brought them up to date. -/
def refresh (now : ℚ) : Option Hash → ℚ × ℚ
  | none => (config.capacity, now)
  | some bucket =>
    let elapsedMs := now - bucket.lastRefill
    if 0 < elapsedMs then
      let refilled := elapsedMs / 1000 * config.refillRatePerSec
      (min config.capacity (bucket.tokens + refilled), now)
    else (bucket.tokens, bucket.lastRefill)

/-- `CONSUME_LUA_SCRIPT`: whether it has consumed, the tokens left, and the database. -/
def consumeScript (now requested : ℚ) (key : String) (db : Database) : (Nat × ℚ) × Database :=
  let (tokens, lastRefill) := refresh config now (hmget db key now)
  let (consumed, tokens) := if requested ≤ tokens then (1, tokens - requested) else (0, tokens)
  ((consumed, tokens), db.set key ⟨tokens, lastRefill, now + ttl config * 1000⟩)

/-- `RedisBucketStore.consumeToken` while it is connected. -/
def consumeToken (keyPrefix : String) (config : BucketConfig) (db : Database) (request : Request) :
    Bool × Database :=
  let key := keyPrefix ++ hashKey sha256 request.providerId
  let ((consumed, _), db) := consumeScript config request.now 1 key db
  (consumed == 1, db)

end Redis

end

/-! ### A forgotten bucket is full -/

variable {config : BucketConfig}

theorem ttl_pos (config : BucketConfig) : (0 : ℚ) < Redis.ttl config := by
  have least : (60 : ℤ) ≤ Redis.ttl config := le_max_left _ _
  exact_mod_cast lt_of_lt_of_le (by norm_num) least

variable (rate : 0 < config.refillRatePerSec) (size : 0 ≤ config.capacity)

include rate size

theorem capacity_le_of_ttl {elapsedMs : ℚ} (elapsed : Redis.ttl config * 1000 ≤ elapsedMs) :
    config.capacity ≤ elapsedMs / 1000 * config.refillRatePerSec := by
  have ceiling : config.capacity / config.refillRatePerSec * 2 ≤ (Redis.ttl config : ℚ) := by
    refine (Int.le_ceil _).trans ?_
    exact_mod_cast le_max_right _ _
  have seconds : config.capacity / config.refillRatePerSec * 2 ≤ elapsedMs / 1000 := by
    linarith
  calc config.capacity
      ≤ config.capacity * 2 := by linarith
    _ = config.capacity / config.refillRatePerSec * 2 * config.refillRatePerSec := by
        field_simp
    _ ≤ elapsedMs / 1000 * config.refillRatePerSec := by gcongr

variable {bucket : TokenBucketEntry} {now : ℚ}

/-- A bucket that has not been used for the time to live is refilled to its capacity, as a new
one is. -/
theorem refill_of_expired (some_tokens : 0 ≤ bucket.tokens)
    (elapsed : bucket.lastRefillMs + Redis.ttl config * 1000 ≤ now) :
    refill config now (some bucket) = refill config now none := by
  have positive := ttl_pos config
  have gain : config.capacity ≤ (now - bucket.lastRefillMs) / 1000 * config.refillRatePerSec :=
    capacity_le_of_ttl rate size (by linarith)
  simp only [refill]
  rw [if_pos (by linarith), min_eq_left (by linarith)]

theorem refill_bounds (now : ℚ) (entry : Option TokenBucketEntry)
    (held : ∀ bucket ∈ entry, 0 ≤ bucket.tokens ∧ bucket.lastRefillMs ≤ now) :
    0 ≤ (refill config now entry).tokens ∧ (refill config now entry).lastRefillMs = now := by
  cases entry with
  | none => exact ⟨size, rfl⟩
  | some bucket =>
    obtain ⟨tokens, earlier⟩ := held bucket rfl
    simp only [refill]
    split
    · have gain : 0 ≤ (now - bucket.lastRefillMs) / 1000 * config.refillRatePerSec := by positivity
      exact ⟨le_min size (by linarith), rfl⟩
    · exact ⟨tokens, le_antisymm earlier (by linarith)⟩

/-! ### The simulation -/

variable (config bucket) in
/-- What Redis holds of a bucket of memory. -/
def TokenBucketEntry.hash : Redis.Hash :=
  ⟨bucket.tokens, bucket.lastRefillMs, bucket.lastRefillMs + Redis.ttl config * 1000⟩

/-- At a time, Redis holds what memory holds, expired or not, and the buckets are in order. -/
structure Agree (keyPrefix : String) (config : BucketConfig) (now : ℚ)
    (buckets : OrderedMap String TokenBucketEntry) (db : Redis.Database) : Prop where
  same : ∀ key, db.get? (keyPrefix ++ key) = (buckets.get? key).map (TokenBucketEntry.hash config)
  tokens : ∀ key bucket, buckets.get? key = some bucket → 0 ≤ bucket.tokens
  earlier : ∀ key bucket, buckets.get? key = some bucket → bucket.lastRefillMs ≤ now

/-- Redis brings a bucket up to date as memory does, whether it has forgotten it or not. -/
theorem refresh_hmget (now : ℚ) (entry : Option TokenBucketEntry)
    (some_tokens : ∀ bucket ∈ entry, 0 ≤ bucket.tokens) :
    Redis.refresh config now ((entry.map (TokenBucketEntry.hash config)).filter fun hash =>
      now < hash.expireAt) =
      ((refill config now entry).tokens, (refill config now entry).lastRefillMs) := by
  cases entry with
  | none => rfl
  | some bucket =>
    by_cases live : now < bucket.lastRefillMs + Redis.ttl config * 1000
    · rw [Option.map_some, Option.filter_some_pos (by exact decide_eq_true live)]
      by_cases elapsed : 0 < now - bucket.lastRefillMs
      · simp [Redis.refresh, refill, TokenBucketEntry.hash, elapsed]
      · simp [Redis.refresh, refill, TokenBucketEntry.hash, elapsed]
    · rw [Option.map_some, Option.filter_some_neg (by exact decide_eq_false live),
        refill_of_expired rate size (some_tokens bucket rfl) (not_lt.mp live)]
      rfl

variable {buckets : OrderedMap String TokenBucketEntry} {db : Redis.Database} {keyPrefix : String}

omit rate size in
theorem Agree.set {before : ℚ} (agree : Agree keyPrefix config before buckets db)
    (later : before ≤ now) (key : String) (some_tokens : 0 ≤ bucket.tokens)
    (upToDate : bucket.lastRefillMs = now) :
    Agree keyPrefix config now (buckets.set key bucket)
      (db.set (keyPrefix ++ key) ⟨bucket.tokens, bucket.lastRefillMs, now + Redis.ttl config * 1000⟩) where
  same := by
    intro other
    rw [OrderedMap.get?_set, OrderedMap.get?_set]
    by_cases here : other = key
    · rw [if_pos (congrArg (keyPrefix ++ ·) here), if_pos here, ← upToDate]
      rfl
    · rw [if_neg fun eq => here (String.append_right_inj keyPrefix |>.mp eq), if_neg here]
      exact agree.same other
  tokens := by
    intro other held found
    rw [OrderedMap.get?_set] at found
    split at found
    · cases found
      exact some_tokens
    · exact agree.tokens other held found
  earlier := by
    intro other held found
    rw [OrderedMap.get?_set] at found
    split at found
    · cases found
      exact upToDate.le
    · exact (agree.earlier other held found).trans later

theorem Agree.consumeToken {sha256 : String → List UInt8} {before : ℚ} (request : Request)
    (agree : Agree keyPrefix config before buckets db) (later : before ≤ request.now) :
    (Redis.consumeToken sha256 keyPrefix config db request).1 =
        (RateLimit.consumeToken sha256 config buckets request).1 ∧
      Agree keyPrefix config request.now
        (RateLimit.consumeToken sha256 config buckets request).2
        (Redis.consumeToken sha256 keyPrefix config db request).2 := by
  set key := hashKey sha256 request.providerId with keyed
  have bounds := refill_bounds rate size request.now (buckets.get? key)
    fun bucket found => ⟨agree.tokens key bucket found, (agree.earlier key bucket found).trans later⟩
  have refreshed := refresh_hmget rate size request.now (buckets.get? key)
    fun bucket found => agree.tokens key bucket found
  rw [← agree.same key] at refreshed
  simp only [Redis.consumeToken, Redis.consumeScript, Redis.hmget, RateLimit.consumeToken, ← keyed,
    refreshed]
  by_cases enough : 1 ≤ (refill config request.now (buckets.get? key)).tokens
  · simp only [if_pos enough]
    exact ⟨rfl, agree.set later key (sub_nonneg.mpr enough) bounds.2⟩
  · simp only [if_neg enough]
    exact ⟨rfl, agree.set later key bounds.1 bounds.2⟩

omit rate size

/-- For every capacity and rate, and every sequence of requests whose times do not go back, the
script of Redis grants exactly the requests that the store in memory grants. -/
theorem redis_grants_eq_memory (sha256 : String → List UInt8) (keyPrefix : String)
    (rate : 0 < config.refillRatePerSec) (size : 0 ≤ config.capacity) (requests : List Request)
    (ordered : requests.Pairwise fun earlier later => earlier.now ≤ later.now) :
    answers (Redis.consumeToken sha256 keyPrefix config) .empty requests =
      answers (consumeToken sha256 config) .empty requests := by
  cases requests with
  | nil => rfl
  | cons first rest =>
    have start : Agree keyPrefix config first.now .empty .empty :=
      ⟨fun _ => rfl, nofun, nofun⟩
    refine answers_eq_of_simulation Request.now
      (R := fun now db buckets => Agree keyPrefix config now buckets db)
      (fun request agree later => agree.consumeToken rate size request later) start ?_ ordered
    intro request mem
    rcases List.mem_cons.mp mem with rfl | mem
    · exact le_refl _
    · exact (List.pairwise_cons.mp ordered).1 request mem

/-- One token, refilled in a second: another request within the second is refused, and one that
comes when Redis has forgotten the bucket is granted. -/
theorem redis_grants_eq_memory_forgotten :
    let config : BucketConfig := ⟨1, 1⟩
    let requests : List Request := [⟨"p", 0⟩, ⟨"p", 500⟩, ⟨"p", 60500⟩]
    answers (Redis.consumeToken utf8Bytes "rate_limit:bucket:" config) .empty requests =
        answers (consumeToken utf8Bytes config) .empty requests ∧
      answers (consumeToken utf8Bytes config) .empty requests = [true, false, true] :=
  ⟨redis_grants_eq_memory _ _ (by norm_num) (by norm_num) _ (by norm_num), by decide +kernel⟩

/-! ### How much a bucket grants -/

/-- A bucket that has granted a number of requests since a first reading of the clock: what it
has granted and what it holds was there at first or has been refilled since. -/
structure TokenBucketEntry.Covers (config : BucketConfig) (first latest : ℚ) (granted : ℕ)
    (bucket : TokenBucketEntry) : Prop where
  nonneg : 0 ≤ bucket.tokens
  capped : bucket.tokens ≤ config.capacity
  started : first ≤ bucket.lastRefillMs
  refilled : bucket.lastRefillMs ≤ latest
  paid : granted + bucket.tokens ≤
    config.capacity + config.refillRatePerSec * (bucket.lastRefillMs - first) / 1000

variable {first latest : ℚ} {granted : ℕ}

/-- A refill pays for the tokens it adds, and a reading that has gone back adds none. -/
theorem TokenBucketEntry.Covers.refill (rate : 0 < config.refillRatePerSec)
    (covers : bucket.Covers config first latest granted) (read : now ≤ latest) :
    (refill config now (some bucket)).Covers config first latest granted := by
  obtain ⟨nonneg, capped, started, refilled, paid⟩ := covers
  simp only [RateLimit.refill]
  split
  · rename_i elapsed
    have gain : 0 ≤ (now - bucket.lastRefillMs) / 1000 * config.refillRatePerSec := by positivity
    refine ⟨le_min (by linarith) (by linarith), min_le_left _ _, by linarith, read, ?_⟩
    have least := min_le_right config.capacity
      (bucket.tokens + (now - bucket.lastRefillMs) / 1000 * config.refillRatePerSec)
    dsimp only
    linarith
  · exact ⟨nonneg, capped, started, refilled, paid⟩

variable {sha256 : String → List UInt8} {providerId : String}

theorem TokenBucketEntry.Covers.consumeToken
    (covers : (RateLimit.refill config now (buckets.get? (hashKey sha256 providerId))).Covers
      config first latest granted) :
    ∃ after, (RateLimit.consumeToken sha256 config buckets ⟨providerId, now⟩).2.get?
        (hashKey sha256 providerId) = some after ∧
      after.Covers config first latest
        (granted + [(RateLimit.consumeToken sha256 config buckets ⟨providerId, now⟩).1].count true) := by
  obtain ⟨nonneg, capped, started, refilled, paid⟩ := covers
  simp only [RateLimit.consumeToken]
  split
  · rename_i enough
    refine ⟨_, OrderedMap.get?_set_self .., by simpa using enough, by simp; linarith, started,
      refilled, ?_⟩
    simp
    linarith
  · exact ⟨_, OrderedMap.get?_set_self .., nonneg, capped, started, refilled, paid⟩

theorem TokenBucketEntry.Covers.run (rate : 0 < config.refillRatePerSec) {readings : List ℚ}
    (read : ∀ now ∈ readings, now ≤ latest) (covers : bucket.Covers config first latest granted)
    (found : buckets.get? (hashKey sha256 providerId) = some bucket) :
    ∃ after, (Lib.run (fun s request => (RateLimit.consumeToken sha256 config s request).2) buckets
        (readings.map (Request.mk providerId))).get? (hashKey sha256 providerId) = some after ∧
      after.Covers config first latest (granted + (answers (RateLimit.consumeToken sha256 config)
        buckets (readings.map (Request.mk providerId))).count true) := by
  induction readings generalizing buckets bucket granted with
  | nil => exact ⟨bucket, found, covers⟩
  | cons now readings ih =>
    obtain ⟨here, rest⟩ := List.forall_mem_cons.mp read
    have paid := covers.refill rate here
    rw [← found] at paid
    obtain ⟨next, held, covers⟩ := paid.consumeToken
    obtain ⟨after, last, covers⟩ := ih rest covers held
    refine ⟨after, last, ?_⟩
    rw [Nat.add_assoc, ← List.count_append] at covers
    exact covers

/-- However the clock of a provider's requests runs, also back, its bucket holds between none
and `capacity` tokens, and the requests granted are at most what it held at first and what the
rate has added up to the latest reading. -/
theorem granted_le_capacity_add_refilled (sha256 : String → List UInt8)
    (rate : 0 < config.refillRatePerSec) (size : 1 ≤ config.capacity) (providerId : String)
    (fresh : buckets.get? (hashKey sha256 providerId) = none) (first : ℚ) (later : List ℚ)
    (latest : ℚ) (read : ∀ now ∈ first :: later, now ≤ latest) :
    let requests := (first :: later).map (Request.mk providerId)
    (∃ bucket, (run (fun s request => (consumeToken sha256 config s request).2) buckets
        requests).get? (hashKey sha256 providerId) = some bucket ∧
      0 ≤ bucket.tokens ∧ bucket.tokens ≤ config.capacity) ∧
    ((answers (consumeToken sha256 config) buckets requests).count true : ℚ) ≤
      config.capacity + config.refillRatePerSec * (latest - first) / 1000 := by
  obtain ⟨here, rest⟩ := List.forall_mem_cons.mp read
  have start : (refill config first (buckets.get? (hashKey sha256 providerId))).Covers config
      first latest 0 := by
    rw [fresh]
    exact ⟨by simp only [refill]; linarith, le_refl _, le_refl _, here, by simp [refill]⟩
  obtain ⟨bucket, found, covers⟩ := start.consumeToken
  obtain ⟨after, last, covers⟩ := covers.run rate rest found
  refine ⟨⟨after, last, covers.nonneg, covers.capped⟩, ?_⟩
  have refilled : config.refillRatePerSec * (after.lastRefillMs - first) / 1000 ≤
      config.refillRatePerSec * (latest - first) / 1000 := by
    have := covers.refilled
    gcongr
  have paid := covers.paid
  rw [Nat.zero_add, ← List.count_append] at paid
  exact (le_add_of_nonneg_right covers.nonneg).trans (paid.trans (by linarith))

/-- Two tokens, and a clock that goes back after a second: three requests of four are granted. -/
theorem granted_le_capacity_add_refilled_back :
    let requests : List Request := [0, 0, 1000, 500].map (Request.mk "p")
    ((answers (consumeToken utf8Bytes ⟨2, 1⟩) .empty requests).count true : ℚ) ≤ 2 + 1 * (1000 - 0) / 1000 ∧
      answers (consumeToken utf8Bytes ⟨2, 1⟩) .empty requests = [true, true, true, false] :=
  ⟨(granted_le_capacity_add_refilled utf8Bytes (by norm_num) (by norm_num) "p" rfl 0
    [0, 1000, 500] 1000 (by norm_num)).2, by decide +kernel⟩

end TalentTrust.RateLimit
