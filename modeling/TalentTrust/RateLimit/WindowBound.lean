import TalentTrust.Lib.Window
import TalentTrust.RateLimit.Middleware

/-!
How many requests of a key the middleware passes on in an interval of one window.

The counter of a key starts again when its window has elapsed, when its block has expired, or
when a sweep has deleted it. It knows nothing of the requests that were passed on before, so
the end of one window and the beginning of the next may have twice as many requests between
them as the limit (`burst_around_roll`). The limit holds for every interval in a run in which
a counter starts again only when all that was passed on is more than a window ago
(`passed_within_window`).
-/

namespace TalentTrust.RateLimit.Http

open TalentTrust.Lib

/-- A request of a key that was passed on to `next()`. -/
structure Pass where
  rawKey : String
  time : ℚ
  deriving DecidableEq

/-- A limiter, with what it has passed on. -/
structure Traffic where
  limiter : Limiter
  passed : List Pass

def Traffic.start : Traffic := ⟨createRateLimiter, []⟩

variable {Req : Type}

section

variable (sha256 : String → List UInt8) (config : Config Req)

def Traffic.step (traffic : Traffic) : Event Req → Traffic
  | .request arrival =>
    let (reply, limiter) := rateLimiterMiddleware sha256 config traffic.limiter arrival
    ⟨limiter, if reply.passed then traffic.passed ++ [⟨config.keyFn arrival.req, arrival.now⟩]
      else traffic.passed⟩
  | .sweep now => { traffic with limiter := traffic.limiter.sweep now }

/-- The times of what was passed on for the keys with a given hash. -/
def Traffic.times (traffic : Traffic) (key : String) : List ℚ :=
  (traffic.passed.filter fun pass => hashKey sha256 pass.rawKey = key).map Pass.time

end

/-- A request finds no window that it belongs to: there is no counter, its block has expired, or
its window has elapsed. -/
def Slot.OpensWindow (config : Config Req) (now : ℚ) (slot : Slot) : Prop :=
  ∀ entry ∈ slot.entry,
    if entry.blocked then entry.blockedUntil ≤ now else config.windowMs < now - entry.windowStart

/-- A request that opens a window comes more than a window after all that was passed on for its
key. -/
def Event.Spaced (sha256 : String → List UInt8) (config : Config Req) (traffic : Traffic) :
    Event Req → Prop
  | .request arrival =>
    (traffic.limiter.slot (hashKey sha256 (config.keyFn arrival.req))).OpensWindow config arrival.now →
      ∀ time ∈ traffic.times sha256 (hashKey sha256 (config.keyFn arrival.req)),
        config.windowMs < arrival.now - time
  | .sweep _ => True

instance (config : Config Req) (now : ℚ) (slot : Slot) : Decidable (slot.OpensWindow config now) :=
  inferInstanceAs (Decidable (∀ entry ∈ slot.entry, _))

instance (sha256 : String → List UInt8) (config : Config Req) (traffic : Traffic) :
    (event : Event Req) → Decidable (event.Spaced sha256 config traffic)
  | .request _ => inferInstanceAs (Decidable (_ → _))
  | .sweep _ => .isTrue trivial

variable {sha256 : String → List UInt8} {config : Config Req}

/-! ### What a request does to its counter -/

/-- What a request leaves of its slot. -/
inductive Slot.Served (config : Config Req) (now : ℚ) (slot : Slot) : Bool × Slot → Prop
  /-- It is refused by a block. -/
  | held : Served config now slot (false, slot)
  /-- It opens a window. -/
  | opened {passed : Bool} {entry : RateLimitEntry} {abuse : Option AbuseRecord}
      (opens : slot.OpensWindow config now) (start : entry.windowStart = now)
      (count : entry.count = 1) (room : passed = true → (entry.count : ℚ) ≤ config.maxRequests) :
      Served config now slot (passed, ⟨some entry, abuse⟩)
  /-- It counts in the window that it finds. -/
  | proceeded {passed : Bool} {old entry : RateLimitEntry} {abuse : Option AbuseRecord}
      (found : slot.entry = some old) (start : entry.windowStart = old.windowStart)
      (count : entry.count = old.count + 1)
      (room : passed = true → (entry.count : ℚ) ≤ config.maxRequests) :
      Served config now slot (passed, ⟨some entry, abuse⟩)

namespace Slot

variable {now : ℚ} {slot : Slot} (config : Config Req) (now : ℚ)

/-- A counted request is passed on within the limit, and a block changes neither the window nor
its count. -/
theorem count_spec (slot : Slot) :
    ∃ passed entry abuse, slot.count config now = (passed, ⟨some entry, abuse⟩) ∧
      entry.windowStart = (RateLimitEntry.counted config now slot.entry).windowStart ∧
      entry.count = (RateLimitEntry.counted config now slot.entry).count ∧
      (passed = true → (entry.count : ℚ) ≤ config.maxRequests) := by
  simp only [count]
  split
  · split
    · exact ⟨_, _, _, rfl, rfl, rfl, fun passed => absurd passed Bool.false_ne_true⟩
    · exact ⟨_, _, _, rfl, rfl, rfl, fun passed => absurd passed Bool.false_ne_true⟩
  · rename_i within
    exact ⟨_, _, _, rfl, rfl, rfl, fun _ => not_lt.mp within⟩

theorem counted_none :
    (RateLimitEntry.counted config now none).windowStart = now ∧
      (RateLimitEntry.counted config now none).count = 1 := by
  simp only [RateLimitEntry.counted, Option.getD_none]
  split <;> exact ⟨rfl, rfl⟩

theorem served (slot : Slot) : slot.Served config now (slot.serve config now) := by
  rcases slot.blocked_or_open with ⟨entry, found, blocked⟩ | unblocked
  · by_cases held : now < entry.blockedUntil
    · rw [serve_of_held found blocked held]
      exact .held
    · rw [serve_of_expired found blocked held]
      obtain ⟨passed, after, abuse, eq, start, count, room⟩ := count_spec config now ⟨none, none⟩
      obtain ⟨begins, one⟩ := counted_none config now
      rw [eq]
      refine .opened ?_ (start.trans begins) (count.trans one) room
      intro other mem
      rw [found] at mem
      cases mem
      rw [if_pos blocked]
      exact not_lt.mp held
  · rw [serve_of_open unblocked]
    obtain ⟨passed, after, abuse, eq, start, count, room⟩ := count_spec config now slot
    rw [eq]
    cases found : slot.entry with
    | none =>
      rw [found] at start count
      obtain ⟨begins, one⟩ := counted_none config now
      refine .opened ?_ (start.trans begins) (count.trans one) room
      rw [OpensWindow, found]
      exact nofun
    | some old =>
      have plain := unblocked old found
      rw [found] at start count
      simp only [RateLimitEntry.counted, Option.getD_some] at start count
      by_cases elapsed : config.windowMs < now - old.windowStart
      · rw [if_pos elapsed] at start count
        refine .opened ?_ start count room
        intro other mem
        rw [found] at mem
        cases mem
        rw [plain]
        exact elapsed
      · rw [if_neg elapsed] at start count
        exact .proceeded found start count room

end Slot

/-! ### The invariant -/

variable (sha256 config) in
/-- Every counter has counted what was passed on since its window began, and nothing that was
passed on before is within a window of that. -/
structure Traffic.Bounded (now : ℚ) (traffic : Traffic) : Prop where
  within : ∀ key, Within config.windowMs ⌊config.maxRequests⌋₊ (traffic.times sha256 key)
  since : ∀ key entry, (traffic.limiter.slot key).entry = some entry →
    Since config.windowMs entry.windowStart entry.count (traffic.times sha256 key)
  started : ∀ key entry, (traffic.limiter.slot key).entry = some entry → entry.windowStart ≤ now

theorem times_concat (traffic : Traffic) (pass : Pass) (limiter : Limiter) (key : String) :
    Traffic.times sha256 ⟨limiter, traffic.passed ++ [pass]⟩ key =
      if hashKey sha256 pass.rawKey = key then traffic.times sha256 key ++ [pass.time]
      else traffic.times sha256 key := by
  simp only [Traffic.times, List.filter_append, List.map_append]
  split
  · rename_i same
    simp [same]
  · rename_i other
    simp [other]

theorem times_request (traffic : Traffic) (arrival : Arrival Req) (key : String) :
    (traffic.step sha256 config (.request arrival)).times sha256 key =
      if (rateLimiterMiddleware sha256 config traffic.limiter arrival).1.passed = true ∧
          hashKey sha256 (config.keyFn arrival.req) = key then
        traffic.times sha256 key ++ [arrival.now]
      else traffic.times sha256 key := by
  simp only [Traffic.step]
  by_cases passed : (rateLimiterMiddleware sha256 config traffic.limiter arrival).1.passed = true
  · simp only [passed, if_true, true_and]
    exact times_concat traffic _ _ key
  · simp only [passed, Bool.false_eq_true, if_false, false_and]
    rfl

variable {traffic : Traffic} {now : ℚ}

theorem Traffic.Bounded.own {key : String} {passed : Bool} {slot : Slot}
    (nonneg : 0 ≤ config.windowMs) (bounded : traffic.Bounded sha256 config now)
    (served : (traffic.limiter.slot key).Served config now (passed, slot))
    (spaced : (traffic.limiter.slot key).OpensWindow config now →
      ∀ time ∈ traffic.times sha256 key, config.windowMs < now - time) :
    let times := if passed then traffic.times sha256 key ++ [now] else traffic.times sha256 key
    Within config.windowMs ⌊config.maxRequests⌋₊ times ∧
      ∀ entry, slot.entry = some entry →
        Since config.windowMs entry.windowStart entry.count times ∧ entry.windowStart ≤ now := by
  have within := bounded.within key
  cases served with
  | held =>
    exact ⟨within, fun entry found => ⟨bounded.since key entry found, bounded.started key entry found⟩⟩
  | opened opens start count room =>
    rename_i entry abuse
    have later := spaced opens
    have since : Since config.windowMs entry.windowStart 0 (traffic.times sha256 key) := by
      rw [start]
      exact since_restart nonneg later
    cases passed with
    | true =>
      refine ⟨within.restart ?_ later, ?_⟩
      · exact Nat.le_floor (by simpa [count] using room rfl)
      · rintro _ ⟨⟩
        rw [count]
        exact ⟨since.concat start.le, start.le⟩
    | false =>
      refine ⟨within, ?_⟩
      rintro _ ⟨⟩
      exact ⟨since.mono (Nat.zero_le _), start.le⟩
  | proceeded found start count room =>
    rename_i old entry abuse
    have since := bounded.since key old found
    have began := bounded.started key old found
    cases passed with
    | true =>
      refine ⟨within.proceed since began ?_, ?_⟩
      · exact count ▸ Nat.le_floor (room rfl)
      · rintro _ ⟨⟩
        rw [count, start]
        exact ⟨since.concat began, began⟩
    | false =>
      refine ⟨within, ?_⟩
      rintro _ ⟨⟩
      rw [count, start]
      exact ⟨since.mono (Nat.le_succ _), began⟩

theorem Traffic.Bounded.later {before : ℚ} (bounded : traffic.Bounded sha256 config before)
    (le : before ≤ now) : traffic.Bounded sha256 config now :=
  ⟨bounded.within, bounded.since, fun key entry found => (bounded.started key entry found).trans le⟩

theorem Traffic.Bounded.request {arrival : Arrival Req} (nonneg : 0 ≤ config.windowMs)
    (bounded : traffic.Bounded sha256 config arrival.now)
    (spaced : (Event.request arrival).Spaced sha256 config traffic) :
    (traffic.step sha256 config (.request arrival)).Bounded sha256 config arrival.now := by
  set own := hashKey sha256 (config.keyFn arrival.req)
  obtain ⟨passed, slots⟩ := middleware_spec traffic.limiter arrival
  obtain ⟨within, counters⟩ := bounded.own nonneg
    ((traffic.limiter.slot own).served config arrival.now) spaced
  have each : ∀ key, Within config.windowMs ⌊config.maxRequests⌋₊
        ((traffic.step sha256 config (.request arrival)).times sha256 key) ∧
      ∀ entry, ((traffic.step sha256 config (.request arrival)).limiter.slot key).entry = some entry →
        Since config.windowMs entry.windowStart entry.count
            ((traffic.step sha256 config (.request arrival)).times sha256 key) ∧
          entry.windowStart ≤ arrival.now := by
    intro key
    have slot : (traffic.step sha256 config (.request arrival)).limiter.slot key = _ := slots key
    rw [slot, times_request, passed]
    by_cases same : key = own
    · subst same
      simp only [own, and_true, if_true]
      exact ⟨within, counters⟩
    · rw [if_neg same, if_neg fun both => same both.2.symm]
      exact ⟨bounded.within key, fun entry found =>
        ⟨bounded.since key entry found, bounded.started key entry found⟩⟩
  exact ⟨fun key => (each key).1, fun key entry found => ((each key).2 entry found).1,
    fun key entry found => ((each key).2 entry found).2⟩

theorem Traffic.Bounded.sweep (bounded : traffic.Bounded sha256 config now) :
    (traffic.step sha256 config (.sweep now)).Bounded sha256 config now := by
  have kept : ∀ key entry, ((traffic.limiter.sweep now).slot key).entry = some entry →
      (traffic.limiter.slot key).entry = some entry := by
    intro key entry found
    rcases sweep_slot traffic.limiter now key with same | ⟨_, _, _, gone⟩
    · rwa [same] at found
    · rw [gone] at found
      cases found
  exact ⟨bounded.within, fun key entry found => bounded.since key entry (kept key entry found),
    fun key entry found => bounded.started key entry (kept key entry found)⟩

theorem Traffic.Bounded.step (nonneg : 0 ≤ config.windowMs) (event : Event Req)
    (bounded : traffic.Bounded sha256 config now) (le : now ≤ event.time)
    (spaced : event.Spaced sha256 config traffic) :
    (traffic.step sha256 config event).Bounded sha256 config event.time := by
  cases event with
  | request arrival => exact (bounded.later le).request nonneg spaced
  | sweep time => exact (bounded.later le).sweep

theorem bounded_start (now : ℚ) : Traffic.start.Bounded sha256 config now :=
  ⟨fun _ => within_nil _ _, nofun, nofun⟩

variable (config traffic) in
/-- What was passed on for a key within a window from a time on. -/
def Traffic.passedWithin (rawKey : String) (first : ℚ) : List Pass :=
  traffic.passed.filter fun pass =>
    pass.rawKey = rawKey ∧ first ≤ pass.time ∧ pass.time ≤ first + config.windowMs

theorem passedWithin_le_countWithin (traffic : Traffic) (rawKey : String) (first : ℚ) :
    (traffic.passedWithin config rawKey first).length ≤
      countWithin config.windowMs first (traffic.times sha256 (hashKey sha256 rawKey)) := by
  rw [Traffic.passedWithin, ← List.countP_eq_length_filter, countWithin, Traffic.times,
    List.countP_map, List.countP_filter]
  refine List.countP_mono_left fun pass _ => ?_
  simp only [decide_eq_true_eq, Function.comp, Bool.and_eq_true]
  rintro ⟨rfl, inside⟩
  exact ⟨inside, rfl⟩

/-- In every run in which a request that opens a window comes more than a window after all that
was passed on for its key, no interval of one window has more requests of a key passed on than
the limit. -/
theorem passed_within_window (sha256 : String → List UInt8) (config : Config Req)
    (limit : 0 ≤ config.maxRequests) (window : 0 ≤ config.windowMs) (events : List (Event Req))
    (ordered : events.Pairwise fun earlier later => earlier.time ≤ later.time)
    (spaced : Along (Traffic.step sha256 config) (Event.Spaced sha256 config) Traffic.start events)
    (reached : List (Event Req)) (initial : reached <+: events) (rawKey : String) (first : ℚ) :
    (((run (Traffic.step sha256 config) Traffic.start reached).passedWithin config rawKey
      first).length : ℚ) ≤ config.maxRequests := by
  have ordered' := ordered.sublist initial.sublist
  have spaced' := spaced.of_prefix initial
  have bounded : ∃ now, (run (Traffic.step sha256 config) Traffic.start reached).Bounded sha256
      config now := by
    cases reached with
    | nil => exact ⟨0, bounded_start 0⟩
    | cons earliest rest =>
      exact spaced'.invariant_at Event.time
        (fun event bounded le spaced => bounded.step window event le spaced)
        (bounded_start earliest.time) (head_le_of_ordered Event.time ordered') ordered'
  obtain ⟨now, bounded⟩ := bounded
  have count := (passedWithin_le_countWithin _ rawKey first).trans
    (bounded.within (hashKey sha256 rawKey) first)
  calc (((run (Traffic.step sha256 config) Traffic.start reached).passedWithin config rawKey
        first).length : ℚ)
      ≤ ⌊config.maxRequests⌋₊ := by exact_mod_cast count
    _ ≤ config.maxRequests := Nat.floor_le limit

/-- Two requests a minute: one at the end of the first window and two at the beginning of the
next one are passed on within two milliseconds. -/
theorem burst_around_roll :
    let config : Config String := { maxRequests := 2, keyFn := id }
    let requests : List (Event String) :=
      [.request ⟨"k", none, 0⟩, .request ⟨"k", none, 60000⟩, .request ⟨"k", none, 60001⟩,
        .request ⟨"k", none, 60002⟩]
    ((run (Traffic.step utf8Bytes config) Traffic.start requests).passedWithin config "k"
      60000).length = 3 := by
  decide +kernel

/-- Two requests a minute: the third one is refused, and the window rolls for a request that
comes a minute later. -/
theorem passed_within_window_spaced :
    let config : Config String := { maxRequests := 2, keyFn := id }
    let requests : List (Event String) :=
      [.request ⟨"k", none, 0⟩, .request ⟨"k", none, 1000⟩, .request ⟨"k", none, 2000⟩,
        .request ⟨"k", none, 61001⟩]
    (((run (Traffic.step utf8Bytes config) Traffic.start requests).passedWithin config "k"
        1001).length : ℚ) ≤ config.maxRequests ∧
      ((run (Traffic.step utf8Bytes config) Traffic.start requests).passed.map Pass.time) =
        [0, 1000, 61001] := by
  intro config requests
  exact ⟨passed_within_window utf8Bytes config (by decide +kernel) (by decide +kernel) requests
    (by norm_num [requests, Event.time]) (by decide +kernel) requests List.prefix_rfl "k" 1001,
    by decide +kernel⟩

end TalentTrust.RateLimit.Http
