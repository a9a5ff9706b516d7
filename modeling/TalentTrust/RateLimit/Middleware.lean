import TalentTrust.RateLimit.BucketStore

/-!
The middleware of `rateLimiter.ts` over the store of `rateLimitStore.ts`, and the sweeps of
the store between its requests.

The middleware reads and writes two records of a key: the counter in the store and the abuse
record in a map of its own. Together they are the `Slot` of the key, and what the middleware
does to it is `Slot.serve` (`middleware_spec`).

At a time, some of a slot no longer matters: a window or a violation window that is over, a
block that has expired. `Slot.live` is the rest. What the middleware does depends on nothing
else, so a sweep that takes away only what is not live changes no decision
(`sweeps_keep_decisions`). The timer sweeps by a window of 60 s, whatever the window of the
limiter is, and it takes an expired block without the abuse record that goes with it; with a
window of at most 60 s and blocks that outlast the violation window, neither is ever noticed
(`harmless_of_config`).
-/

namespace TalentTrust.RateLimit.Http

open TalentTrust.Lib

/-! ### The store -/

structure RateLimitEntry where
  count : ℕ
  windowStart : ℚ
  blocked : Bool
  blockedUntil : ℚ
  deriving DecidableEq

structure RateLimitStore where
  counters : OrderedMap String RateLimitEntry
  tokenBuckets : OrderedMap String TokenBucketEntry
  destroyed : Bool

namespace RateLimitStore

def new : RateLimitStore := ⟨.empty, .empty, false⟩

section

variable (sha256 : String → List UInt8) (store : RateLimitStore) (rawKey : String)

def get : Option RateLimitEntry :=
  store.counters.get? (hashKey sha256 rawKey)

def set (entry : RateLimitEntry) : RateLimitStore :=
  { store with counters := store.counters.set (hashKey sha256 rawKey) entry }

/-- `delete`: of the counter and of the token bucket. -/
def delete : RateLimitStore :=
  { store with
    counters := store.counters.erase (hashKey sha256 rawKey)
    tokenBuckets := store.tokenBuckets.erase (hashKey sha256 rawKey) }

end

/-- What `sweep` deletes. -/
def swept (windowMs now : ℚ) (entry : RateLimitEntry) : Bool :=
  let windowExpired := windowMs < now - entry.windowStart
  let blockExpired := !entry.blocked || entry.blockedUntil < now
  windowExpired && blockExpired

def sweep (windowMs now : ℚ) (store : RateLimitStore) : RateLimitStore :=
  if store.destroyed then store
  else { store with counters := store.counters.filter fun e => !swept windowMs now e.2 }

/-- The window of a sweep without an argument, as the timer of the store makes it. -/
def sweepWindowMs : ℚ := 60000

end RateLimitStore

/-! ### The middleware -/

/-- `RateLimiterConfig` with its defaults, apart from the store, which is a new one. -/
structure Config (Req : Type) where
  maxRequests : ℚ := 100
  windowMs : ℚ := 60000
  abuseThreshold : ℚ := 5
  blockWindowMs : ℚ := 300000
  blockDurationMs : ℚ := 600000
  maxBlockDurationMs : ℚ := 86400000
  keyFn : Req → String
  sendHeaders : Bool := true

structure AbuseRecord where
  violations : ℕ
  firstViolation : ℚ
  blockDuration : ℚ
  deriving DecidableEq

/-- What `createRateLimiter` closes over. -/
structure Limiter where
  store : RateLimitStore
  abuseMap : OrderedMap String AbuseRecord

def createRateLimiter : Limiter := ⟨.new, .empty⟩

/-- A request, the id that an earlier middleware has left in `res.locals`, and `Date.now()`. -/
structure Arrival (Req : Type) where
  req : Req
  requestId : Option String
  now : ℚ

inductive HeaderValue where
  | number (n : ℚ)
  | text (s : String)
  deriving DecidableEq

/-- The error of a 429 response. -/
structure ErrorBody where
  code : String
  message : String
  requestId : String
  deriving DecidableEq

/-- What becomes of a request: it is passed on to `next()`, or answered with a 429. -/
inductive Reply where
  | next (headers : List (String × HeaderValue))
  | tooMany (headers : List (String × HeaderValue)) (error : ErrorBody)
  deriving DecidableEq

def Reply.passed : Reply → Bool
  | .next _ => true
  | .tooMany _ _ => false

/-- `Math.ceil(ms / 1000)`. -/
def seconds (ms : ℚ) : HeaderValue := .number ⌈ms / 1000⌉

variable {Req : Type}

/-- The body of a 429; `sanitizeErrorMessage` leaves its message as it is. -/
def Arrival.error (arrival : Arrival Req) : ErrorBody :=
  ⟨"rate_limited", "Too many requests — please try again later", arrival.requestId.getD "unknown"⟩

/-- Headers, where the limiter sends them. -/
def Config.headers (config : Config Req) (headers : List (String × HeaderValue)) :
    List (String × HeaderValue) :=
  if config.sendHeaders then headers else []

/-- The counter with one more request, in a new window if the old one has elapsed. -/
def RateLimitEntry.counted (config : Config Req) (now : ℚ) (stored : Option RateLimitEntry) :
    RateLimitEntry :=
  let entry := stored.getD ⟨0, now, false, 0⟩
  let entry := if config.windowMs < now - entry.windowStart then
    { entry with count := 0, windowStart := now } else entry
  { entry with count := entry.count + 1 }

/-- The abuse record with one more violation, in a new violation window if the old one has
elapsed. -/
def AbuseRecord.violated (config : Config Req) (now : ℚ) (stored : Option AbuseRecord) :
    AbuseRecord :=
  let abuse := stored.getD ⟨0, now, config.blockDurationMs⟩
  let abuse := if config.blockWindowMs < now - abuse.firstViolation then
    ⟨0, now, config.blockDurationMs⟩ else abuse
  { abuse with violations := abuse.violations + 1 }

/-- The block that a record of abuse brings on a key: how long it is, and the record with the
duration of the next one. -/
def AbuseRecord.block (config : Config Req) (abuse : AbuseRecord) : ℚ × AbuseRecord :=
  (min abuse.blockDuration config.maxBlockDurationMs,
    { abuse with blockDuration := min (abuse.blockDuration * 2) config.maxBlockDurationMs })

/-- The counter of a key that is blocked for `duration`. -/
def RateLimitEntry.block (now duration : ℚ) (entry : RateLimitEntry) : RateLimitEntry :=
  { entry with blocked := true, blockedUntil := now + duration }

section Middleware

variable (sha256 : String → List UInt8) (config : Config Req)
  (limiter : Limiter) (arrival : Arrival Req)

/-- Step 3 of the middleware: the limit is exceeded. -/
def abuseGuard (entry : RateLimitEntry) (headers : List (String × HeaderValue)) : Reply × Limiter :=
  let rawKey := config.keyFn arrival.req
  let hashedKey := hashKey sha256 rawKey
  let abuse := AbuseRecord.violated config arrival.now (limiter.abuseMap.get? hashedKey)
  if config.abuseThreshold ≤ abuse.violations then
    let (duration, abuse) := abuse.block config
    (.tooMany (headers ++ config.headers
        [("Retry-After", seconds duration), ("X-RateLimit-Blocked", .text "true")]) arrival.error,
      { store := limiter.store.set sha256 rawKey (entry.block arrival.now duration)
        abuseMap := limiter.abuseMap.set hashedKey abuse })
  else
    (.tooMany (headers ++ config.headers
        [("Retry-After", seconds (entry.windowStart + config.windowMs - arrival.now))])
        arrival.error,
      { limiter with abuseMap := limiter.abuseMap.set hashedKey abuse })

/-- Step 2 of the middleware: the counter of the key. -/
def countRequest : Reply × Limiter :=
  let rawKey := config.keyFn arrival.req
  let entry := RateLimitEntry.counted config arrival.now (limiter.store.get sha256 rawKey)
  let limiter := { limiter with store := limiter.store.set sha256 rawKey entry }
  let headers := config.headers
    [("X-RateLimit-Limit", .number config.maxRequests),
      ("X-RateLimit-Remaining", .number (max 0 (config.maxRequests - entry.count))),
      ("X-RateLimit-Reset", seconds (entry.windowStart + config.windowMs - arrival.now))]
  if config.maxRequests < entry.count then abuseGuard sha256 config limiter arrival entry headers
  else (.next headers, limiter)

def rateLimiterMiddleware : Reply × Limiter :=
  let rawKey := config.keyFn arrival.req
  match (limiter.store.get sha256 rawKey).filter RateLimitEntry.blocked with
  | some existing =>
    if arrival.now < existing.blockedUntil then
      (.tooMany (config.headers
          [("Retry-After", seconds (existing.blockedUntil - arrival.now)),
            ("X-RateLimit-Blocked", .text "true")]) arrival.error,
        limiter)
    else
      -- The block has expired.
      countRequest sha256 config
        { store := limiter.store.delete sha256 rawKey
          abuseMap := limiter.abuseMap.erase (hashKey sha256 rawKey) } arrival
  | none => countRequest sha256 config limiter arrival

/-! ### Runs -/

/-- What happens to a limiter: a request arrives, or the timer of its store fires. -/
inductive Event (Req : Type) where
  | request (arrival : Arrival Req)
  | sweep (now : ℚ)

def Event.time : Event Req → ℚ
  | .request arrival => arrival.now
  | .sweep now => now

def Event.isRequest : Event Req → Bool
  | .request _ => true
  | .sweep _ => false

def Limiter.sweep (now : ℚ) : Limiter :=
  { limiter with store := limiter.store.sweep RateLimitStore.sweepWindowMs now }

def step : Event Req → Limiter
  | .request arrival => (rateLimiterMiddleware sha256 config limiter arrival).2
  | .sweep now => limiter.sweep now

/-- For each request of a run, whether it is passed on. -/
def decisions : Limiter → List (Event Req) → List Bool
  | _, [] => []
  | limiter, .request arrival :: events =>
    (rateLimiterMiddleware sha256 config limiter arrival).1.passed ::
      decisions (rateLimiterMiddleware sha256 config limiter arrival).2 events
  | limiter, .sweep now :: events => decisions (limiter.sweep now) events

end Middleware

/-! ### The slot of a key -/

/-- What the limiter holds under a hashed key. -/
@[ext]
structure Slot where
  entry : Option RateLimitEntry
  abuse : Option AbuseRecord
  deriving DecidableEq

def Limiter.slot (limiter : Limiter) (key : String) : Slot :=
  ⟨limiter.store.counters.get? key, limiter.abuseMap.get? key⟩

namespace Slot

variable (config : Config Req)

/-- Steps 2 and 3 of the middleware on the slot of its key. -/
def count (now : ℚ) (slot : Slot) : Bool × Slot :=
  let entry := RateLimitEntry.counted config now slot.entry
  if config.maxRequests < entry.count then
    let abuse := AbuseRecord.violated config now slot.abuse
    if config.abuseThreshold ≤ abuse.violations then
      (false, ⟨some (entry.block now (abuse.block config).1), some (abuse.block config).2⟩)
    else (false, ⟨some entry, some abuse⟩)
  else (true, ⟨some entry, slot.abuse⟩)

/-- The middleware on the slot of its key. -/
def serve (now : ℚ) (slot : Slot) : Bool × Slot :=
  match slot.entry.filter RateLimitEntry.blocked with
  | some existing => if now < existing.blockedUntil then (false, slot) else count config now ⟨none, none⟩
  | none => count config now slot

end Slot

variable {sha256 : String → List UInt8} {config : Config Req}
  (limiter : Limiter) (arrival : Arrival Req)

theorem countRequest_spec :
    let own := hashKey sha256 (config.keyFn arrival.req)
    let served := (limiter.slot own).count config arrival.now
    (countRequest sha256 config limiter arrival).1.passed = served.1 ∧
      ∀ key, (countRequest sha256 config limiter arrival).2.slot key =
        if key = own then served.2 else limiter.slot key := by
  intro own served
  set entry := RateLimitEntry.counted config arrival.now (limiter.slot own).entry with counted
  set abuse := AbuseRecord.violated config arrival.now (limiter.slot own).abuse with violated
  have stored : limiter.store.get sha256 (config.keyFn arrival.req) = (limiter.slot own).entry := rfl
  have recorded : limiter.abuseMap.get? (hashKey sha256 (config.keyFn arrival.req)) =
      (limiter.slot own).abuse := rfl
  simp only [served, countRequest, abuseGuard, Slot.count, stored, recorded, ← counted, ← violated]
  by_cases exceeded : config.maxRequests < entry.count
  · by_cases abusive : config.abuseThreshold ≤ abuse.violations
    all_goals
      simp only [exceeded, abusive, if_true, if_false]
      refine ⟨rfl, fun key => ?_⟩
      simp only [Limiter.slot, RateLimitStore.set, OrderedMap.get?_set, own]
      split <;> rfl
  · simp only [if_neg exceeded]
    refine ⟨rfl, fun key => ?_⟩
    simp only [Limiter.slot, RateLimitStore.set, OrderedMap.get?_set]
    split
    · rename_i same
      rw [same]
    · rfl

/-- The middleware decides by the slot of the key, and changes no other. -/
theorem middleware_spec :
    let own := hashKey sha256 (config.keyFn arrival.req)
    let served := (limiter.slot own).serve config arrival.now
    (rateLimiterMiddleware sha256 config limiter arrival).1.passed = served.1 ∧
      ∀ key, (rateLimiterMiddleware sha256 config limiter arrival).2.slot key =
        if key = own then served.2 else limiter.slot key := by
  intro own served
  have stored : limiter.store.get sha256 (config.keyFn arrival.req) = (limiter.slot own).entry := rfl
  simp only [rateLimiterMiddleware, served, Slot.serve, stored]
  split
  · split
    · refine ⟨rfl, fun key => ?_⟩
      split
      · rename_i same
        rw [same]
      · rfl
    · -- Deleting the key leaves its slot empty.
      have deleted : ∀ key, Limiter.slot
          { store := limiter.store.delete sha256 (config.keyFn arrival.req)
            abuseMap := limiter.abuseMap.erase (hashKey sha256 (config.keyFn arrival.req)) } key =
            if key = own then ⟨none, none⟩ else limiter.slot key := by
        intro key
        simp only [Limiter.slot, RateLimitStore.delete, OrderedMap.get?_erase, own]
        split <;> rfl
      obtain ⟨passed, slots⟩ := countRequest_spec _ arrival
      rw [deleted, if_pos rfl] at passed slots
      refine ⟨passed, fun key => (slots key).trans ?_⟩
      by_cases same : key = own
      · rw [if_pos same, if_pos same]
      · rw [if_neg same, if_neg same, deleted, if_neg same]
  · exact countRequest_spec limiter arrival

/-! ### What of a slot matters -/

/-- A counter whose window has not elapsed; without a block its `blockedUntil` is not read. -/
def RateLimitEntry.live (config : Config Req) (now : ℚ) (entry : RateLimitEntry) :
    Option RateLimitEntry :=
  if config.windowMs < now - entry.windowStart then none else some { entry with blockedUntil := 0 }

/-- An abuse record whose violation window has not elapsed. -/
def AbuseRecord.live (config : Config Req) (now : ℚ) (abuse : AbuseRecord) : Option AbuseRecord :=
  if config.blockWindowMs < now - abuse.firstViolation then none else some abuse

namespace Slot

/-- The abuse record of a slot, if its violation window has not elapsed. -/
def liveAbuse (config : Config Req) (now : ℚ) (slot : Slot) : Option AbuseRecord :=
  slot.abuse.bind (AbuseRecord.live config now)

/-- What of a slot matters to a request at a time and later. -/
def live (config : Config Req) (now : ℚ) (slot : Slot) : Slot :=
  match slot.entry.filter RateLimitEntry.blocked with
  | some existing =>
    if now < existing.blockedUntil then ⟨slot.entry, slot.liveAbuse config now⟩ else ⟨none, none⟩
  | none => ⟨slot.entry.bind (RateLimitEntry.live config now), slot.liveAbuse config now⟩

theorem blocked_or_open (slot : Slot) :
    (∃ entry, slot.entry = some entry ∧ entry.blocked = true) ∨
      ∀ entry ∈ slot.entry, entry.blocked = false := by
  cases slot.entry with
  | none => exact .inr nofun
  | some entry =>
    cases blocked : entry.blocked with
    | true => exact .inl ⟨entry, rfl, blocked⟩
    | false => exact .inr fun _ eq => Option.some.inj eq ▸ blocked

variable {slot : Slot} {now : ℚ} {entry : RateLimitEntry}

section Blocked

variable (found : slot.entry = some entry) (blocked : entry.blocked = true)

include found blocked

theorem filter_of_blocked : slot.entry.filter RateLimitEntry.blocked = some entry := by
  rw [found, Option.filter_some_pos blocked]

theorem live_of_held (held : now < entry.blockedUntil) :
    slot.live config now = ⟨some entry, slot.liveAbuse config now⟩ := by
  simp only [live, filter_of_blocked found blocked, if_pos held]
  rw [found]

theorem live_of_expired (expired : ¬now < entry.blockedUntil) : slot.live config now = ⟨none, none⟩ := by
  simp [live, filter_of_blocked found blocked, if_neg expired]

theorem serve_of_held (held : now < entry.blockedUntil) : slot.serve config now = (false, slot) := by
  simp [serve, filter_of_blocked found blocked, if_pos held]

theorem serve_of_expired (expired : ¬now < entry.blockedUntil) :
    slot.serve config now = count config now ⟨none, none⟩ := by
  simp [serve, filter_of_blocked found blocked, if_neg expired]

end Blocked

section Open

variable (unblocked : ∀ entry ∈ slot.entry, entry.blocked = false)

include unblocked

theorem filter_of_open : slot.entry.filter RateLimitEntry.blocked = none := by
  cases found : slot.entry with
  | none => rfl
  | some entry => rw [Option.filter_some_neg (unblocked entry found)]

theorem live_of_open :
    slot.live config now =
      ⟨slot.entry.bind (RateLimitEntry.live config now), slot.liveAbuse config now⟩ := by
  simp [live, filter_of_open unblocked]

theorem serve_of_open : slot.serve config now = slot.count config now := by
  simp [serve, filter_of_open unblocked]

theorem unblocked_of_live :
    ∀ entry ∈ slot.entry.bind (RateLimitEntry.live config now), entry.blocked = false := by
  intro live found
  obtain ⟨entry, stored, kept⟩ := Option.bind_eq_some_iff.mp found
  have same := unblocked entry stored
  simp only [RateLimitEntry.live] at kept
  split at kept
  · cases kept
  · cases kept
    exact same

theorem counted_live :
    RateLimitEntry.counted config now (slot.entry.bind (RateLimitEntry.live config now)) =
      { RateLimitEntry.counted config now slot.entry with blockedUntil := 0 } := by
  cases found : slot.entry with
  | none => simp [RateLimitEntry.counted]
  | some entry =>
    have same := unblocked entry found
    by_cases stale : config.windowMs < now - entry.windowStart
    · simp [RateLimitEntry.counted, RateLimitEntry.live, stale, same]
    · simp [RateLimitEntry.counted, RateLimitEntry.live, stale]

theorem counted_unblocked :
    (RateLimitEntry.counted config now slot.entry).blocked = false := by
  cases found : slot.entry with
  | none => simp [RateLimitEntry.counted]
  | some entry =>
    have same := unblocked entry found
    simp only [RateLimitEntry.counted, Option.getD_some]
    split <;> exact same

end Open

/-! ### Time passes -/

variable {later : ℚ}

theorem liveAbuse_live (le : now ≤ later) {entry : Option RateLimitEntry} :
    liveAbuse config later ⟨entry, slot.liveAbuse config now⟩ = slot.liveAbuse config later := by
  cases found : slot.abuse with
  | none => simp [liveAbuse, found]
  | some abuse =>
    by_cases stale : config.blockWindowMs < now - abuse.firstViolation
    · have still : config.blockWindowMs < later - abuse.firstViolation :=
        lt_of_lt_of_le stale (sub_le_sub_right le _)
      simp [liveAbuse, found, AbuseRecord.live, stale, still]
    · simp [liveAbuse, found, AbuseRecord.live, stale]

theorem entry_live_live (le : now ≤ later) (entry : RateLimitEntry) :
    (entry.live config now).bind (RateLimitEntry.live config later) = entry.live config later := by
  by_cases stale : config.windowMs < now - entry.windowStart
  · have still : config.windowMs < later - entry.windowStart :=
      lt_of_lt_of_le stale (sub_le_sub_right le _)
    simp [RateLimitEntry.live, stale, still]
  · simp [RateLimitEntry.live, stale]

theorem live_live (le : now ≤ later) (slot : Slot) :
    (slot.live config now).live config later = slot.live config later := by
  rcases slot.blocked_or_open with ⟨entry, found, blocked⟩ | unblocked
  · by_cases held : now < entry.blockedUntil
    · rw [live_of_held found blocked held]
      by_cases still : later < entry.blockedUntil
      · rw [live_of_held rfl blocked still, live_of_held found blocked still, liveAbuse_live le]
      · rw [live_of_expired rfl blocked still, live_of_expired found blocked still]
    · rw [live_of_expired found blocked held,
        live_of_expired found blocked fun still => held (le.trans_lt still)]
      rfl
  · rw [live_of_open unblocked, live_of_open unblocked,
      live_of_open (unblocked_of_live unblocked), liveAbuse_live le, Option.bind_assoc]
    simp [entry_live_live le]

/-! ### A request reads what is live -/

theorem violated_live :
    AbuseRecord.violated config now (slot.liveAbuse config now) =
      AbuseRecord.violated config now slot.abuse := by
  cases found : slot.abuse with
  | none => simp [liveAbuse, found]
  | some abuse =>
    by_cases stale : config.blockWindowMs < now - abuse.firstViolation
    · simp [liveAbuse, found, AbuseRecord.live, AbuseRecord.violated, stale]
    · simp [liveAbuse, found, AbuseRecord.live, stale]

variable (unblocked : entry.blocked = false)

include unblocked

theorem live_of_unblocked (abuse : Option AbuseRecord) :
    live config now ⟨some entry, abuse⟩ =
      ⟨entry.live config now, liveAbuse config now ⟨some entry, abuse⟩⟩ := by
  refine live_of_open ?_
  rintro _ ⟨⟩
  exact unblocked

theorem live_blockedUntil (abuse : Option AbuseRecord) :
    live config now ⟨some { entry with blockedUntil := 0 }, abuse⟩ =
      live config now ⟨some entry, abuse⟩ := by
  rw [live_of_unblocked unblocked]
  exact live_of_unblocked (by exact unblocked) abuse

theorem live_liveAbuse :
    live config now ⟨some entry, slot.liveAbuse config now⟩ =
      live config now ⟨some entry, slot.abuse⟩ := by
  rw [live_of_unblocked unblocked, live_of_unblocked unblocked, liveAbuse_live le_rfl]
  rfl

omit unblocked

theorem count_live (unblocked : ∀ entry ∈ slot.entry, entry.blocked = false) :
    (count config now (slot.live config now)).1 = (count config now slot).1 ∧
      (count config now (slot.live config now)).2.live config now =
        (count config now slot).2.live config now := by
  have plain : (RateLimitEntry.counted config now slot.entry).blocked = false :=
    counted_unblocked unblocked
  simp only [live_of_open unblocked, count, counted_live unblocked, violated_live]
  by_cases exceeded : config.maxRequests < (RateLimitEntry.counted config now slot.entry).count
  · by_cases abusive : config.abuseThreshold ≤ (AbuseRecord.violated config now slot.abuse).violations
    · simp only [if_pos exceeded, if_pos abusive]
      exact ⟨trivial, rfl⟩
    · simp only [if_pos exceeded, if_neg abusive]
      exact ⟨trivial, live_blockedUntil plain _⟩
  · simp only [if_neg exceeded]
    exact ⟨trivial, (live_blockedUntil plain _).trans (live_liveAbuse plain)⟩

/-- A request is decided by what is live of its slot, and so is what it leaves live. -/
theorem serve_live (slot : Slot) :
    ((slot.live config now).serve config now).1 = (slot.serve config now).1 ∧
      ((slot.live config now).serve config now).2.live config now =
        (slot.serve config now).2.live config now := by
  rcases slot.blocked_or_open with ⟨entry, found, blocked⟩ | unblocked
  · by_cases held : now < entry.blockedUntil
    · have kept : slot.live config now = ⟨some entry, slot.liveAbuse config now⟩ :=
        live_of_held found blocked held
      rw [serve_of_held found blocked held, kept, serve_of_held rfl blocked held, ← kept]
      exact ⟨rfl, live_live le_rfl slot⟩
    · rw [live_of_expired found blocked held, serve_of_expired found blocked held]
      exact ⟨rfl, rfl⟩
  · have still : ∀ entry ∈ (slot.live config now).entry, entry.blocked = false := by
      rw [live_of_open unblocked]
      exact unblocked_of_live unblocked
    rw [serve_of_open unblocked, serve_of_open still]
    exact count_live unblocked

end Slot

/-! ### Sweeps -/

variable (config) in
/-- What a sweep deletes does not matter to any later request: an open window that has
elapsed for the limiter too, or a block that leaves no violation window behind. -/
def Event.Harmless : Event Req → Prop
  | .request _ => True
  | .sweep now => ∀ key entry, limiter.store.counters.get? key = some entry →
      RateLimitStore.swept RateLimitStore.sweepWindowMs now entry = true →
      if entry.blocked then
        ∀ abuse, limiter.abuseMap.get? key = some abuse →
          config.blockWindowMs < now - abuse.firstViolation
      else config.windowMs < now - entry.windowStart

theorem sweep_slot (now : ℚ) (key : String) :
    (limiter.sweep now).slot key = limiter.slot key ∨
      ∃ entry, (limiter.slot key).entry = some entry ∧
        RateLimitStore.swept RateLimitStore.sweepWindowMs now entry = true ∧
        (limiter.sweep now).slot key = ⟨none, (limiter.slot key).abuse⟩ := by
  simp only [Limiter.sweep, RateLimitStore.sweep]
  split
  · exact .inl rfl
  · simp only [Limiter.slot, OrderedMap.get?_filter]
    cases found : limiter.store.counters.get? key with
    | none => exact .inl rfl
    | some entry =>
      cases old : RateLimitStore.swept RateLimitStore.sweepWindowMs now entry with
      | false =>
        left
        rw [Option.filter_some_pos (by simp [old])]
      | true =>
        refine .inr ⟨entry, rfl, old, ?_⟩
        rw [Option.filter_some_neg (by simp [old])]

/-- Two limiters that hold the same of what matters. -/
def Alike (config : Config Req) (now : ℚ) (a b : Limiter) : Prop :=
  ∀ key, (a.slot key).live config now = (b.slot key).live config now

variable {now : ℚ}

theorem Alike.later {a b : Limiter} {later : ℚ} (alike : Alike config now a b) (le : now ≤ later) :
    Alike config later a b := by
  intro key
  rw [← Slot.live_live le, alike, Slot.live_live le]

theorem Alike.request {a b : Limiter} {arrival : Arrival Req}
    (alike : Alike config arrival.now a b) :
    (rateLimiterMiddleware sha256 config a arrival).1.passed =
        (rateLimiterMiddleware sha256 config b arrival).1.passed ∧
      Alike config arrival.now (rateLimiterMiddleware sha256 config a arrival).2
        (rateLimiterMiddleware sha256 config b arrival).2 := by
  obtain ⟨passedA, slotsA⟩ := middleware_spec a arrival
  obtain ⟨passedB, slotsB⟩ := middleware_spec b arrival
  have own := alike (hashKey sha256 (config.keyFn arrival.req))
  obtain ⟨decidedA, leftA⟩ := Slot.serve_live (a.slot (hashKey sha256 (config.keyFn arrival.req)))
  obtain ⟨decidedB, leftB⟩ := Slot.serve_live (b.slot (hashKey sha256 (config.keyFn arrival.req)))
  constructor
  · rw [passedA, passedB, ← decidedA, ← decidedB, own]
  · intro key
    rw [slotsA, slotsB]
    split
    · rw [← leftA, ← leftB, own]
    · exact alike key

/-- A harmless sweep takes nothing away that matters. -/
theorem Alike.sweep {a b : Limiter} (alike : Alike config now a b)
    (harmless : (Event.sweep now : Event Req).Harmless config a) :
    Alike config now (a.sweep now) b := by
  intro key
  rw [← alike]
  rcases sweep_slot a now key with same | ⟨entry, found, old, gone⟩
  · rw [same]
  · have settled := harmless key entry found old
    rw [gone]
    cases blocked : entry.blocked with
    | true =>
      rw [blocked] at settled
      have expired : ¬now < entry.blockedUntil := by
        simp only [RateLimitStore.swept, blocked, Bool.not_true, Bool.false_or, Bool.and_eq_true,
          decide_eq_true_eq] at old
        exact old.2.not_gt
      rw [Slot.live_of_expired found blocked expired]
      cases recorded : (a.slot key).abuse with
      | none => rfl
      | some abuse =>
        simp [Slot.live, Slot.liveAbuse, AbuseRecord.live, settled abuse recorded]
    | false =>
      rw [blocked, if_neg Bool.false_ne_true] at settled
      have unblocked : ∀ e ∈ (a.slot key).entry, e.blocked = false := by
        rw [found]
        rintro _ ⟨⟩
        exact blocked
      rw [Slot.live_of_open unblocked, found]
      simp [Slot.live, Slot.liveAbuse, RateLimitEntry.live, settled]

theorem decisions_of_alike {events : List (Event Req)} {a b : Limiter}
    (alike : Alike config now a b) (late : ∀ event ∈ events, now ≤ event.time)
    (ordered : events.Pairwise fun earlier later => earlier.time ≤ later.time)
    (harmless : Along (step sha256 config) (fun limiter event => event.Harmless config limiter) a
      events) :
    decisions sha256 config a events =
      decisions sha256 config b (events.filter Event.isRequest) := by
  -- The induction is on the run; the second limiter does not see the sweeps.
  induction events generalizing a b now with
  | nil => rfl
  | cons event events ih =>
    obtain ⟨after, rest⟩ := List.pairwise_cons.mp ordered
    have here := alike.later (late event List.mem_cons_self)
    cases event with
    | request arrival =>
      obtain ⟨same, alike'⟩ := here.request
      rw [List.filter_cons_of_pos rfl, decisions, decisions, same,
        ih alike' after rest harmless.2]
    | sweep time =>
      exact ih (here.sweep harmless.1) after rest harmless.2

/-! ### Keys do not interfere -/

theorem destroyed_middleware :
    (rateLimiterMiddleware sha256 config limiter arrival).2.store.destroyed =
      limiter.store.destroyed := by
  simp only [rateLimiterMiddleware, countRequest, abuseGuard]
  repeat' split
  all_goals rfl

variable (sha256 config) in
/-- A sweep, or a request under the hashed key. -/
def Event.concerns (key : String) : Event Req → Bool
  | .request arrival => hashKey sha256 (config.keyFn arrival.req) = key
  | .sweep _ => true

/-- Whether a request is passed on depends on no request under another key. -/
theorem keys_isolated (events : List (Event Req)) :
    (rateLimiterMiddleware sha256 config (run (step sha256 config) limiter events) arrival).1.passed =
      (rateLimiterMiddleware sha256 config (run (step sha256 config) limiter (events.filter
        (Event.concerns sha256 config (hashKey sha256 (config.keyFn arrival.req))))) arrival).1.passed := by
  rw [(middleware_spec _ _).1, (middleware_spec _ _).1]
  set own := hashKey sha256 (config.keyFn arrival.req)
  -- A sweep reads the flag of the store as well.
  let view (l : Limiter) := (l.slot own, l.store.destroyed)
  have alike : ∀ s t event, view s = view t →
      view (step sha256 config s event) = view (step sha256 config t event) := by
    intro s t event same
    obtain ⟨slot, destroyed⟩ := Prod.mk.inj same
    cases event with
    | request other =>
      simp only [view, step, (middleware_spec _ _).2, destroyed_middleware, destroyed]
      split
      · rename_i here
        rw [← here, slot]
      · rw [slot]
    | sweep now =>
      obtain ⟨entry, abuse⟩ := Slot.mk.inj slot
      simp only [view, step, Limiter.sweep, RateLimitStore.sweep, destroyed]
      split
      · exact same
      · simp only [Limiter.slot, OrderedMap.get?_filter, entry, abuse]
  have ignores : ∀ s event, event.concerns sha256 config own = false →
      view (step sha256 config s event) = view s := by
    intro s event ignored
    cases event with
    | request other =>
      have elsewhere : own ≠ hashKey sha256 (config.keyFn other.req) :=
        fun here => of_decide_eq_false ignored here.symm
      simp only [view, step, (middleware_spec _ _).2, destroyed_middleware, if_neg elsewhere]
    | sweep now => cases ignored
  rw [(Prod.mk.inj (view_run_filter view _ alike ignores (Eq.refl (view limiter)) events)).1]

/-! ### Configurations whose sweeps are harmless -/

/-- The least duration of a block. -/
def Config.leastBlock (config : Config Req) : ℚ :=
  min config.blockDurationMs config.maxBlockDurationMs

variable (config now) in
/-- The blocks of a slot last as long as any does, and its times have come. -/
structure Slot.Settled (slot : Slot) : Prop where
  past : ∀ abuse ∈ slot.abuse, abuse.firstViolation ≤ now
  duration : ∀ abuse ∈ slot.abuse, config.leastBlock ≤ abuse.blockDuration
  blocked : ∀ entry ∈ slot.entry, entry.blocked = true → ∀ abuse ∈ slot.abuse,
    abuse.firstViolation + config.leastBlock ≤ entry.blockedUntil

variable (config now) in
theorem settled_empty : Slot.Settled config now ⟨none, none⟩ :=
  ⟨nofun, nofun, nofun⟩

namespace Slot.Settled

variable {slot : Slot} {now : ℚ}

theorem later {before : ℚ} (settled : slot.Settled config before) (le : before ≤ now) :
    slot.Settled config now :=
  ⟨fun abuse mem => (settled.past abuse mem).trans le, settled.duration, settled.blocked⟩

theorem violated (settled : slot.Settled config now) :
    (AbuseRecord.violated config now slot.abuse).firstViolation ≤ now ∧
      config.leastBlock ≤ (AbuseRecord.violated config now slot.abuse).blockDuration := by
  have fresh : config.leastBlock ≤ config.blockDurationMs := min_le_left _ _
  cases found : slot.abuse with
  | none => simp [AbuseRecord.violated, fresh]
  | some abuse =>
    have past := settled.past abuse found
    have duration := settled.duration abuse found
    simp only [AbuseRecord.violated, Option.getD_some]
    split
    · exact ⟨le_refl _, fresh⟩
    · exact ⟨past, duration⟩

variable (nonneg : 0 ≤ config.leastBlock) (settled : slot.Settled config now)

include nonneg settled

theorem count (unblocked : ∀ entry ∈ slot.entry, entry.blocked = false) :
    (slot.count config now).2.Settled config now := by
  obtain ⟨past, duration⟩ := settled.violated
  have plain : (RateLimitEntry.counted config now slot.entry).blocked = false :=
    counted_unblocked unblocked
  have cap : config.leastBlock ≤ config.maxBlockDurationMs := min_le_right _ _
  simp only [Slot.count]
  split
  · split
    · refine ⟨?_, ?_, ?_⟩
      · rintro _ ⟨⟩
        exact past
      · rintro _ ⟨⟩
        exact le_min (by linarith) cap
      · rintro _ ⟨⟩ - _ ⟨⟩
        exact add_le_add past (le_min duration cap)
    · refine ⟨?_, ?_, ?_⟩
      · rintro _ ⟨⟩
        exact past
      · rintro _ ⟨⟩
        exact duration
      · rintro _ ⟨⟩ blocked
        exact absurd (plain.symm.trans blocked) Bool.false_ne_true
  · refine ⟨settled.past, settled.duration, ?_⟩
    rintro _ ⟨⟩ blocked
    exact absurd (plain.symm.trans blocked) Bool.false_ne_true

theorem serve : (slot.serve config now).2.Settled config now := by
  rcases slot.blocked_or_open with ⟨entry, found, blocked⟩ | unblocked
  · by_cases held : now < entry.blockedUntil
    · rwa [serve_of_held found blocked held]
    · rw [serve_of_expired found blocked held]
      exact (settled_empty config now).count nonneg nofun
  · rw [serve_of_open unblocked]
    exact settled.count nonneg unblocked

end Slot.Settled

variable (config now) in
def Limiter.Settled (limiter : Limiter) : Prop :=
  ∀ key, (limiter.slot key).Settled config now

theorem Limiter.Settled.step (nonneg : 0 ≤ config.leastBlock) {limiter : Limiter}
    (event : Event Req) (settled : limiter.Settled config now) (le : now ≤ event.time) :
    (step sha256 config limiter event).Settled config event.time := by
  intro key
  have here := (settled key).later le
  cases event with
  | request arrival =>
    rw [Http.step, (middleware_spec limiter arrival).2 key]
    split
    · rename_i same
      rw [← same]
      exact here.serve nonneg
    · exact here
  | sweep time =>
    rw [Http.step]
    rcases sweep_slot limiter time key with same | ⟨_, _, _, gone⟩
    · rwa [same]
    · rw [gone]
      exact ⟨here.past, here.duration, nofun⟩

variable (short : config.windowMs ≤ RateLimitStore.sweepWindowMs)

include short

/-- A sweep of settled slots is harmless when the window of the limiter is not longer than that
of the sweep, and no block is shorter than the violation window. -/
theorem Limiter.Settled.harmless
    (outlasts : config.blockWindowMs ≤ config.leastBlock) {limiter : Limiter}
    (settled : limiter.Settled config now) (event : Event Req) : event.Harmless config limiter := by
  cases event with
  | request _ => trivial
  | sweep time =>
    intro key entry found old
    simp only [RateLimitStore.swept, Bool.and_eq_true, Bool.or_eq_true, Bool.not_eq_true',
      decide_eq_true_eq] at old
    obtain ⟨elapsed, expired⟩ := old
    split
    · rename_i blocked
      intro abuse recorded
      have lasts := (settled key).blocked entry found blocked abuse recorded
      have passed : entry.blockedUntil < time :=
        expired.resolve_left fun unblocked => Bool.false_ne_true (unblocked.symm.trans blocked)
      linarith
    · linarith

variable (sha256 config) in
theorem harmless_of_config (nonneg : 0 ≤ config.blockWindowMs)
    (outlasts : config.blockWindowMs ≤ config.leastBlock) (events : List (Event Req))
    (ordered : events.Pairwise fun earlier later => earlier.time ≤ later.time) :
    Along (step sha256 config) (fun limiter event => event.Harmless config limiter)
      createRateLimiter events := by
  cases events with
  | nil => trivial
  | cons first rest =>
    have start : createRateLimiter.Settled config first.time :=
      fun _ => settled_empty config first.time
    refine along_of_invariant_at Event.time ?_ start (head_le_of_ordered Event.time ordered) ordered
    intro now limiter event settled le
    exact ⟨settled.harmless short outlasts event,
      settled.step (nonneg.trans outlasts) event le⟩

omit short

/-- Sweeps that delete only what no longer matters change no decision of the middleware, in
every run whose clock does not go back. -/
theorem sweeps_keep_decisions (sha256 : String → List UInt8) (config : Config Req)
    (events : List (Event Req))
    (ordered : events.Pairwise fun earlier later => earlier.time ≤ later.time)
    (harmless : Along (step sha256 config) (fun limiter event => event.Harmless config limiter)
      createRateLimiter events) :
    decisions sha256 config createRateLimiter events =
      decisions sha256 config createRateLimiter (events.filter Event.isRequest) := by
  cases events with
  | nil => rfl
  | cons first rest =>
    have alike : Alike config first.time createRateLimiter createRateLimiter := fun _ => rfl
    exact decisions_of_alike alike (head_le_of_ordered Event.time ordered) ordered harmless

/-- One request in two minutes, and the timer of the store after the first two minutes: it
deletes the window of the first request, and the second one is passed on. -/
theorem sweep_admits :
    let config : Config String := { maxRequests := 1, windowMs := 120000, keyFn := id }
    let events : List (Event String) :=
      [.request ⟨"k", none, 50000⟩, .sweep 120000, .request ⟨"k", none, 121000⟩]
    decisions utf8Bytes config createRateLimiter events = [true, true] ∧
      decisions utf8Bytes config createRateLimiter (events.filter Event.isRequest) =
        [true, false] := by
  decide +kernel

/-- With the defaults, but for one request a minute: a sweep deletes the window of the first
request, which has elapsed for the limiter too. -/
theorem sweeps_keep_default_decisions :
    let config : Config String := { maxRequests := 1, keyFn := id }
    let events : List (Event String) :=
      [.request ⟨"k", none, 0⟩, .request ⟨"k", none, 1000⟩, .sweep 61000,
        .request ⟨"k", none, 62000⟩]
    decisions utf8Bytes config createRateLimiter events =
        decisions utf8Bytes config createRateLimiter (events.filter Event.isRequest) ∧
      decisions utf8Bytes config createRateLimiter events = [true, false, true] := by
  intro config events
  have ordered : events.Pairwise fun earlier later => earlier.time ≤ later.time := by
    norm_num [events, Event.time]
  have harmless := harmless_of_config utf8Bytes config (by decide +kernel) (by decide +kernel)
    (by decide +kernel) events ordered
  exact ⟨sweeps_keep_decisions utf8Bytes config events ordered harmless, by decide +kernel⟩

end TalentTrust.RateLimit.Http
