import TalentTrust.Auth.Lockout

/-!
What the history of the account lockout shows.

Releases are paired with triggers through the marker `lockedUntil`, which the
record keeps after the lock has expired. The sweep, and a failure that finds
the streak decayed, destroy the marker; a run in which neither happens pairs
them (`releases_paired_iff`).

Between two locks of an identity the counted failures form streaks. Each
counted failure goes on with the count of the one before, or starts again from
one because the one before has decayed; the streak that locks has exactly
`maxFailures` of them (`lockout_bounds_guessing`).
-/

namespace TalentTrust.Auth.Lockout

open TalentTrust.Lib
open TalentTrust.Audit

/-! ### Pairing releases with triggers -/

/-- The deadline of the trigger of `id` that still has to be released, read off
the history: logged by a failure, and neither followed by a success nor by a
failure that came when the lock had expired. -/
def unmatched (config : Config) (id : String) : List Occurrence → Option Nat
  | [] => none
  | .success id' _ _ :: earlier => if id' = id then none else unmatched config id earlier
  | .failure id' now again _ logged :: earlier =>
    if id' = id then
      if logged.any (·.action = .authLockoutTriggered) then some (now + config.lockoutDurationMs)
      else (unmatched config id earlier).filter (again < ·)
    else unmatched config id earlier

/-- A success that came now would log one release if there is an unmatched
trigger, and none otherwise. -/
def Paired (rt : Runtime) (config : Config) (s : State) : Prop :=
  ∀ email ctx, (loggedBy s.tracker (recordSuccess rt config s.tracker email ctx).2).countP
      (·.action = .authLockoutReleased) =
    if (unmatched config (normalizeEmail rt email) s.history).isSome then 1 else 0

/-- The deadline of a lock that begins now is a date that can be printed. -/
def InRange (config : Config) (s : State) : Event → Prop
  | .recordFailure _ _ wait _ => s.clock + wait + config.lockoutDurationMs ≤ maxTime
  | _ => True

/-- No marker is destroyed: a sweep removes no record that carries one, and no
failure finds a locked record decayed, except where one failure locks again. -/
def Intact (rt : Runtime) (config : Config) (s : State) : Event → Prop
  | .recordFailure email _ wait lag =>
    ∀ record, record? rt s.tracker (normalizeEmail rt email) = some record →
      record.Locked (s.clock + wait + lag) → record.Decayed config (s.clock + wait + lag) →
      config.maxFailures = 1
  | .sweep wait => ∀ e ∈ s.tracker.records.entries, 0 < e.2.lockedUntil →
      ¬ e.2.Swept config (s.clock + wait)
  | _ => True

/-- The marker of a record, as a deadline. -/
def marker (record : Option FailureRecord) : Option Nat :=
  (record.map (·.lockedUntil)).filter (0 < ·)

variable {rt : Runtime} {config : Config} {record : FailureRecord}

theorem marker_some :
    marker (some record) = if 0 < record.lockedUntil then some record.lockedUntil else none := by
  simp only [marker, Option.map_some, Option.filter_some]
  by_cases marked : 0 < record.lockedUntil <;> simp [marked]

variable (rt config) in
/-- Every record belongs to an identity the tracker acts on, and the marker of
an identity is its unmatched trigger. -/
structure Marked (s : State) : Prop where
  clock : 0 < s.clock
  owned : ∀ k record, s.tracker.records.get? k = some record →
    ∃ email, Active rt config email ∧ k = key rt (normalizeEmail rt email)
  matched : ∀ id, unmatched config id s.history = marker (record? rt s.tracker id)

theorem marked_start (ms : Nat) : Marked rt config (start ms) where
  clock := Nat.succ_pos ms
  owned := by
    intro k record found
    cases found
  matched := fun _ => rfl

variable {s : State} {email : String}

theorem Marked.record?_of_not_active (inv : Marked rt config s) (idle : ¬ Active rt config email) :
    record? rt s.tracker (normalizeEmail rt email) = none := by
  cases found : record? rt s.tracker (normalizeEmail rt email) with
  | none => rfl
  | some record =>
    obtain ⟨email', active, same⟩ := inv.owned _ record found
    refine absurd ?_ idle
    rw [Active, key_injective same]
    exact active

theorem Marked.active_of_found (inv : Marked rt config s)
    (found : record? rt s.tracker (normalizeEmail rt email) = some record) :
    Active rt config email := by
  by_contra idle
  rw [inv.record?_of_not_active idle] at found
  cases found

theorem loggedBy_append (t : Tracker) (records : OrderedMap String FailureRecord)
    (logged : List CreateAuditEntryInput) : loggedBy t ⟨records, t.audit ++ logged⟩ = logged :=
  List.drop_left

theorem loggedBy_self (t : Tracker) : loggedBy t t = [] := List.drop_length

variable (config s email) in
theorem released_iff_marker (ctx : AuditContext)
    (active : record? rt s.tracker (normalizeEmail rt email) ≠ none → Active rt config email) :
    (loggedBy s.tracker (recordSuccess rt config s.tracker email ctx).2).countP
        (·.action = .authLockoutReleased) =
      if (marker (record? rt s.tracker (normalizeEmail rt email))).isSome then 1 else 0 := by
  cases found : record? rt s.tracker (normalizeEmail rt email) with
  | none =>
    rw [recordSuccess_of_none found, loggedBy_self]
    rfl
  | some record =>
    rw [recordSuccess_of_some (active (by simp [found])) found, loggedBy_append, marker_some]
    by_cases marked : 0 < record.lockedUntil <;> simp [marked, emitReleaseAudit]

theorem Marked.paired (inv : Marked rt config s) : Paired rt config s := by
  intro email ctx
  rw [inv.matched]
  apply released_iff_marker
  intro found
  by_contra idle
  exact found (inv.record?_of_not_active idle)

variable (rt config email) in
theorem emitTriggerAudit_any (ctx : AuditContext) (printable : record.lockedUntil ≤ maxTime) :
    (emitTriggerAudit rt config email record ctx).any (·.action = .authLockoutTriggered) = true := by
  simp [emitTriggerAudit, toISOString, printable]

variable {base : FailureRecord} {now : Nat}

/-- A failure that is counted from a record without a deadline: the unmatched trigger is the
marker of the new record, unless one was left that the failure does not replace. -/
theorem matched_countFailure {left : Option Nat} (positive : 0 < now)
    (printable : now + config.lockoutDurationMs ≤ maxTime) (unmarked : base.lockedUntil = 0)
    (noneLeft : left = none ∨ base.failed + 1 = config.maxFailures) (email : String)
    (ctx : AuditContext) : let out := countFailure config base now
    (if (if out.2.triggeredLockout then emitTriggerAudit rt config email out.1 ctx else []).any
          (·.action = .authLockoutTriggered) then some (now + config.lockoutDurationMs)
      else left) = marker (some out.1) := by
  intro out
  obtain ⟨-, -, -, full, marked⟩ := countFailure_spec config now unmarked
  by_cases reached : base.failed + 1 = config.maxFailures
  · rw [if_pos reached] at marked
    have logs := emitTriggerAudit_any rt config email ctx (marked ▸ printable)
    have atDeadline : 0 < now + config.lockoutDurationMs := Nat.add_pos_left positive _
    rw [if_pos (full.mpr reached), if_pos logs, marker_some, marked, if_pos atDeadline]
  · rw [if_neg reached] at marked
    have quiet : ¬ out.2.triggeredLockout = true := fun triggered => reached (full.mp triggered)
    rw [if_neg quiet, marker_some, marked]
    simpa using noneLeft.resolve_right reached

variable {record : Option FailureRecord} {again : Nat} {ctx : AuditContext}

/-- What the observer of `id` makes of a failure on its record: the unmatched
trigger is the marker of the new record. -/
theorem matched_failRecord (le : now ≤ again) (positive : 0 < now)
    (printable : now + config.lockoutDurationMs ≤ maxTime)
    (intact : ∀ r, record = some r → r.Locked again → r.Decayed config again →
      config.maxFailures = 1) :
    let out := failRecord config (record.getD emptyRecord) now again
    (if (if out.2.triggeredLockout then emitTriggerAudit rt config email out.1 ctx else []).any
          (·.action = .authLockoutTriggered) then some (now + config.lockoutDurationMs)
      else (marker record).filter (again < ·)) = marker (some out.1) := by
  rcases failRecord_cases config (record.getD emptyRecord) le with
    ⟨locked, fresh, held⟩ | ⟨unmarked, -, eq⟩ | ⟨stale, eq⟩
  · cases record with
    | none => exact absurd locked.1 (by simp [emptyRecord])
    | some r =>
      rw [Option.getD_some] at locked held
      simp [held, marker_some, locked.1, locked.2]
  · rw [eq]
    refine matched_countFailure positive printable unmarked (.inl ?_) email ctx
    cases record with
    | none => rfl
    | some r =>
      rw [Option.getD_some] at unmarked
      simp [marker_some, unmarked]
  · rw [eq]
    refine matched_countFailure positive printable rfl ?_ email ctx
    cases record with
    | none => exact .inl rfl
    | some r =>
      by_cases locked : r.Locked again
      · have decayed := stale.resolve_left (not_expired_of_locked le locked).2
        exact .inr (intact r rfl locked decayed).symm
      · left
        rw [marker_some]
        by_cases marked : 0 < r.lockedUntil
        · have past : r.lockedUntil ≤ again := by
            by_contra before
            exact locked ⟨marked, Nat.not_le.mp before⟩
          simp [marked, past]
        · simp [marked]

variable (inv : Marked rt config s)

include inv

theorem Marked.clock_step (e : Event) : 0 < (Lockout.step rt config s e).clock :=
  inv.clock.trans_le (clock_le_step rt config s e)

theorem Marked.step_recordFailure {wait lag : Nat}
    (printable : InRange config s (.recordFailure email ctx wait lag))
    (intact : Intact rt config s (.recordFailure email ctx wait lag)) :
    Marked rt config (Lockout.step rt config s (.recordFailure email ctx wait lag)) := by
  have clock := inv.clock_step (.recordFailure email ctx wait lag)
  have le := Nat.le_add_right (s.clock + wait) lag
  by_cases active : Active rt config email
  · refine ⟨clock, ?_, ?_⟩
    · intro k record found
      simp only [Lockout.step, recordFailure_eq active, OrderedMap.get?_set] at found
      by_cases same : k = key rt (normalizeEmail rt email)
      · exact ⟨email, active, same⟩
      · rw [if_neg same] at found
        exact inv.owned k record found
    · intro id
      simp only [Lockout.step, unmatched, recordFailure_eq active, loggedBy_append, record?_set]
      by_cases same : id = normalizeEmail rt email
      · subst same
        rw [if_pos rfl, if_pos rfl, inv.matched]
        exact matched_failRecord le (Nat.add_pos_left inv.clock wait) printable intact
      · rw [if_neg same, if_neg (fun eq => same eq.symm), inv.matched]
  · refine ⟨clock, ?_, ?_⟩
    · simp only [Lockout.step, recordFailure_of_not_active active]
      exact inv.owned
    · intro id
      simp only [Lockout.step, unmatched, recordFailure_of_not_active active, loggedBy_self]
      by_cases same : normalizeEmail rt email = id
      · subst same
        simp [inv.matched, inv.record?_of_not_active active, marker]
      · rw [if_neg same, inv.matched]

variable (email ctx) in
theorem Marked.step_recordSuccess :
    Marked rt config (Lockout.step rt config s (.recordSuccess email ctx)) := by
  have clock := inv.clock_step (.recordSuccess email ctx)
  cases found : record? rt s.tracker (normalizeEmail rt email) with
  | none =>
    refine ⟨clock, ?_, ?_⟩
    · simp only [Lockout.step, recordSuccess_of_none found]
      exact inv.owned
    · intro id
      simp only [Lockout.step, unmatched, recordSuccess_of_none found]
      by_cases same : normalizeEmail rt email = id
      · subst same
        rw [if_pos rfl, found]
        rfl
      · rw [if_neg same, inv.matched]
  | some record =>
    have active : Active rt config email := inv.active_of_found found
    refine ⟨clock, ?_, ?_⟩
    · intro k record' found'
      simp only [Lockout.step, recordSuccess_of_some active found] at found'
      exact inv.owned k record' (OrderedMap.get?_of_erase found')
    · intro id
      simp only [Lockout.step, unmatched, recordSuccess_of_some active found, record?_erase]
      by_cases same : normalizeEmail rt email = id
      · rw [if_pos same, if_pos same.symm]
        rfl
      · rw [if_neg same, if_neg (fun eq => same eq.symm), inv.matched]

/-- The sweep keeps every marker, where it is intact. -/
theorem Marked.step_sweep {wait : Nat} (intact : Intact rt config s (.sweep wait)) :
    Marked rt config (Lockout.step rt config s (.sweep wait)) := by
  refine ⟨inv.clock_step (.sweep wait), ?_, ?_⟩
  · intro k record found
    exact inv.owned k record (OrderedMap.get?_of_filter found).1
  · intro id
    simp only [Lockout.step, record?_sweep]
    rw [inv.matched]
    cases found : record? rt s.tracker id with
    | none => rfl
    | some record =>
      by_cases swept : record.Swept config (s.clock + wait)
      · have unmarked : ¬ 0 < record.lockedUntil := fun marked =>
          intact (key rt id, record) (OrderedMap.get?_eq_some_iff.mp found) marked swept
        rw [Option.filter_some_neg (by simpa using swept), marker_some, if_neg unmarked]
        rfl
      · rw [Option.filter_some_pos (by simpa using swept)]

variable {e : Event}

theorem Marked.step (printable : InRange config s e)
    (intact : Intact rt config s e) : Marked rt config (Lockout.step rt config s e) := by
  cases e with
  | assess email wait => exact ⟨inv.clock_step _, inv.owned, inv.matched⟩
  | recordFailure email ctx wait lag => exact inv.step_recordFailure printable intact
  | recordSuccess email ctx => exact inv.step_recordSuccess email ctx
  | sweep wait => exact inv.step_sweep intact

/-- A step that leaves releases paired has destroyed no marker. -/
theorem Marked.intact
    (paired : Paired rt config (Lockout.step rt config s e)) : Intact rt config s e := by
  cases e with
  | assess email wait | recordSuccess email ctx => trivial
  | recordFailure email ctx wait lag =>
    intro record found locked decayed
    by_contra several
    have active : Active rt config email := inv.active_of_found found
    have le := Nat.le_add_right (s.clock + wait) lag
    -- The failure is counted from zero and sets no lock.
    have afresh : failRecord config record (s.clock + wait) (s.clock + wait + lag) =
        countFailure config emptyRecord (s.clock + wait) := by
      rcases failRecord_cases config record le with ⟨-, fresh, -⟩ | ⟨-, fresh, -⟩ | ⟨-, eq⟩
      · exact absurd decayed fresh
      · exact absurd decayed fresh
      · exact eq
    obtain ⟨-, -, -, full, marked⟩ :=
      countFailure_spec config (s.clock + wait) (show emptyRecord.lockedUntil = 0 from rfl)
    have notFull : ¬ emptyRecord.failed + 1 = config.maxFailures := fun eq => several eq.symm
    rw [if_neg notFull] at marked
    have quiet : ¬ (countFailure config emptyRecord (s.clock + wait)).2.triggeredLockout = true :=
      fun triggered => notFull (full.mp triggered)
    have count := paired email {}
    rw [released_iff_marker config _ email {} (fun _ => active)] at count
    simp only [Lockout.step, unmatched, recordFailure_eq active, loggedBy_append, record?_set,
      found, Option.getD_some, afresh, if_true, if_neg quiet, marker_some, marked, inv.matched,
      if_pos locked.1] at count
    simp [locked.2] at count
  | sweep wait =>
    intro entry mem marked swept
    obtain ⟨k, record⟩ := entry
    have found := OrderedMap.get?_eq_some_iff.mpr mem
    obtain ⟨email, active, rfl⟩ := inv.owned k record found
    change record? rt s.tracker (normalizeEmail rt email) = some record at found
    have count := paired email {}
    rw [released_iff_marker config _ email {} (fun _ => active)] at count
    have removed : record? rt (sweep config s.tracker (s.clock + wait)).2 (normalizeEmail rt email) =
        none := by
      rw [record?_sweep, found]
      exact Option.filter_some_neg (by simpa using swept)
    simp only [Lockout.step, removed, inv.matched, found, marker_some, if_pos marked] at count
    simp [marker] at count

omit inv

/-- While deadlines are dates that can be printed, releases are paired with
triggers in every state of a run exactly when no call destroys a marker. -/
theorem releases_paired_iff (rt : Runtime) (config : Config) (ms : Nat) (events : List Event)
    (printable : Along (step rt config) (InRange config) (start ms) events) :
    Along (step rt config) (Intact rt config) (start ms) events ↔
      ∀ done, done <+: events → Paired rt config (run (step rt config) (start ms) done) :=
  printable.iff_always (fun _ _ inv inRange intact => inv.step inRange intact)
    (fun _ inv => inv.paired) (fun _ _ inv _ paired => inv.intact paired) (marked_start ms)

/-- Five failures, and a success a minute after the lock has expired. -/
def lateSuccess : List Event :=
  burst "a" 5 ++ [.assess "a" 960000, .recordSuccess "a" {}]

instance (config : Config) (s : State) (e : Event) : Decidable (InRange config s e) :=
  match e with
  | .recordFailure .. => inferInstanceAs (Decidable (_ ≤ _))
  | .assess _ _ | .recordSuccess _ _ | .sweep _ => isTrue trivial

theorem releases_paired_iff_late :
    Along (step sampleRuntime defaultConfig) (InRange defaultConfig) (start 0) lateSuccess ∧
    (Along (step sampleRuntime defaultConfig) (Intact sampleRuntime defaultConfig) (start 0)
        lateSuccess ↔
      ∀ done, done <+: lateSuccess →
        Paired sampleRuntime defaultConfig (run (step sampleRuntime defaultConfig) (start 0) done)) :=
  have printable : Along (step sampleRuntime defaultConfig) (InRange defaultConfig) (start 0)
      lateSuccess := by decide +kernel
  ⟨printable, releases_paired_iff sampleRuntime defaultConfig 0 lateSuccess printable⟩

/-- Locks whose deadline lies beyond every date. -/
def endlessConfig : Config := { defaultConfig with lockoutDurationMs := 10000000000000000 }

/-- With the default configuration the sweep that runs after a lock has expired
takes away the marker, and the success that follows logs no release. With a
lock of 10^16 ms the trigger is not logged, and the success logs a release. -/
theorem release_lost_to_sweep :
    ¬ Paired sampleRuntime defaultConfig (run (step sampleRuntime defaultConfig) (start 0)
      (burst "a" 5 ++ [.sweep 900000])) ∧
    ¬ Paired sampleRuntime endlessConfig (run (step sampleRuntime endlessConfig) (start 0)
      (burst "a" 5)) := by
  constructor
  · intro paired
    exact absurd (paired "a" {}) (by decide +kernel)
  · intro paired
    exact absurd (paired "a" {}) (by decide +kernel)

/-! ### Failures between two locks -/

/-- A call of `recordFailure`: its two readings of the clock and its result. -/
structure Try where
  now : Nat
  again : Nat
  result : FailureRecordResult
  deriving DecidableEq

/-- The calls of `recordFailure` for an identity, newest first. -/
def tries (id : String) (history : List Occurrence) : List Try :=
  history.filterMap fun
    | .failure id' now again result _ => if id' = id then some ⟨now, again, result⟩ else none
    | .success _ _ _ => none

/-- The call triggered the lock, or found none. -/
def Try.counted (t : Try) : Bool := t.result.triggeredLockout || !t.result.isNowLocked

/-- `first` and `second` triggered locks, and the calls between them did not. -/
structure Consecutive (all : List Try) (first second : Try) (between : List Try) : Prop where
  split : ∃ later earlier, all = later ++ second :: (between ++ first :: earlier)
  first : first.result.triggeredLockout = true
  second : second.result.triggeredLockout = true
  between : ∀ t ∈ between, t.result.triggeredLockout = false

/-- The calls that were counted after one lock, up to the call that triggers the
next, newest first. -/
def countedUpTo (second : Try) (between : List Try) : List Try :=
  (second :: between).filter Try.counted

/-- Each call comes within the decay window of the call before it. -/
def Gapless (config : Config) (ts : List Try) : Prop :=
  ts.IsChain fun newer older => newer.again ≤ older.now + config.decayWindowMs

variable (rt config) in
/-- The lockout bounds the guesses of an identity. -/
structure BoundsGuessing (id : String) (s : State) : Prop where
  failed : ∀ record, record? rt s.tracker id = some record → record.failed ≤ config.maxFailures ∧
    (record.failed = config.maxFailures → 0 < record.lockedUntil)
  apart : ∀ first second between, Consecutive (tries id s.history) first second between →
    first.now + config.lockoutDurationMs ≤ second.again
  enough : ∀ first second between, Consecutive (tries id s.history) first second between →
    config.maxFailures ≤ (countedUpTo second between).length
  gapless : ∀ first second between, Consecutive (tries id s.history) first second between →
    Gapless config (countedUpTo second between) →
    (countedUpTo second between).length = config.maxFailures

/-- How a counted call goes on from the counted call before it: after a lock
from one, once the lock has expired; otherwise with the next count, or from one
once the streak has decayed. -/
def Follows (config : Config) (newer older : Try) : Prop :=
  older.again ≤ newer.now ∧
    if older.result.triggeredLockout then
      newer.result.failures = 1 ∧ older.now + config.lockoutDurationMs ≤ newer.again
    else newer.result.failures = older.result.failures + 1 ∨
      (newer.result.failures = 1 ∧ older.now + config.decayWindowMs < newer.again)

/-- A counted call is within the threshold, and triggers a lock when it reaches it. -/
structure Tallied (config : Config) (t : Try) : Prop where
  started : 0 < t.now
  ordered : t.now ≤ t.again
  atMost : t.result.failures ≤ config.maxFailures
  triggers : t.result.triggeredLockout = true ↔ t.result.failures = config.maxFailures

/-- The record after the newest counted call: as that call left it, or gone,
once the lock has expired or the streak has decayed. -/
def Current (config : Config) (clock : Nat) (record : Option FailureRecord) : List Try → Prop
  | [] => record = none
  | t :: _ => t.again ≤ clock ∧
      ((∃ r, record = some r ∧ r.failed = t.result.failures ∧ r.lastFailureAt = t.now ∧
          r.lockedUntil =
            if t.result.triggeredLockout then t.now + config.lockoutDurationMs else 0) ∨
        (record = none ∧
          if t.result.triggeredLockout then t.now + config.lockoutDurationMs ≤ clock
          else t.now + config.decayWindowMs < clock))

structure Streaks (config : Config) (clock : Nat) (record : Option FailureRecord) (ts : List Try) :
    Prop where
  follows : ts.IsChain (Follows config)
  tallied : ∀ t ∈ ts, Tallied config t
  current : Current config clock record ts

variable {ts : List Try} {clock clock' : Nat}

theorem Current.later (current : Current config clock record ts)
    (le : clock ≤ clock') : Current config clock' record ts := by
  cases ts with
  | nil => exact current
  | cons t ts =>
    obtain ⟨past, here | ⟨gone, ended⟩⟩ := current
    · exact ⟨past.trans le, .inl here⟩
    · refine ⟨past.trans le, .inr ⟨gone, ?_⟩⟩
      by_cases triggered : t.result.triggeredLockout = true
      · rw [if_pos triggered] at ended ⊢
        exact ended.trans le
      · rw [if_neg triggered] at ended ⊢
        exact ended.trans_le le

theorem Streaks.later (streaks : Streaks config clock record ts)
    (le : clock ≤ clock') : Streaks config clock' record ts :=
  ⟨streaks.follows, streaks.tallied, streaks.current.later le⟩

variable (config base now again) in
/-- How a call that counts on from `base` goes on from the counted call before it. -/
def GoesOn (older : Try) : Prop :=
  older.again ≤ now ∧
    if older.result.triggeredLockout then
      base.failed = 0 ∧ older.now + config.lockoutDurationMs ≤ again
    else base.failed = older.result.failures ∨
      (base.failed = 0 ∧ older.now + config.decayWindowMs < again)

theorem GoesOn.follows {older : Try} {result : FailureRecordResult}
    (goesOn : GoesOn config base now again older) (failures : result.failures = base.failed + 1) :
    Follows config ⟨now, again, result⟩ older := by
  obtain ⟨ordered, how⟩ := goesOn
  refine ⟨ordered, ?_⟩
  by_cases triggered : older.result.triggeredLockout = true
  · rw [if_pos triggered] at how ⊢
    exact ⟨by rw [failures, how.1], how.2⟩
  · rw [if_neg triggered] at how ⊢
    rcases how with next | ⟨zero, decayed⟩
    · exact .inl (by rw [failures, next])
    · exact .inr ⟨by rw [failures, zero], decayed⟩

theorem Streaks.count (streaks : Streaks config clock record ts) (ticking : 0 < now)
    (le : now ≤ again) (unmarked : base.lockedUntil = 0) (below : base.failed < config.maxFailures)
    (goesOn : ∀ older ∈ ts.head?, GoesOn config base now again older) :
    let out := countFailure config base now
    let t : Try := ⟨now, again, out.2⟩
    Streaks config again (some out.1) (if t.counted then t :: ts else ts) := by
  intro out t
  obtain ⟨failed, last, failures, full, marked⟩ := countFailure_spec config now unmarked
  have isCounted : t.counted = true := by
    cases triggered : out.2.triggeredLockout with
    | true => simp [Try.counted, t, triggered]
    | false =>
      have quiet := not_isNowLocked_countFailure config now unmarked triggered
      simp [Try.counted, t, out, triggered, quiet]
  rw [if_pos isCounted]
  refine ⟨?_, ?_, Nat.le_refl again, .inl ⟨out.1, rfl, ?_, last, ?_⟩⟩
  · refine List.isChain_cons.mpr ⟨?_, streaks.follows⟩
    intro older head
    exact (goesOn older head).follows failures
  · intro t' mem
    rcases List.mem_cons.mp mem with rfl | mem
    · exact ⟨ticking, le, failures.trans_le below, by rw [failures]; exact full⟩
    · exact streaks.tallied t' mem
  · rw [failed, failures]
  · rw [marked]
    by_cases reached : base.failed + 1 = config.maxFailures
    · rw [if_pos reached, if_pos (full.mpr reached)]
    · rw [if_neg reached, if_neg (fun triggered => reached (full.mp triggered))]

/-- Without a record, the lock has expired or the streak has decayed. -/
theorem Streaks.goesOn_of_none (streaks : Streaks config clock none ts) (later : clock ≤ now)
    (le : now ≤ again) : ∀ older ∈ ts.head?, GoesOn config emptyRecord now again older := by
  intro older head
  have current := streaks.current
  cases ts with
  | nil => cases head
  | cons t rest =>
    cases head
    obtain ⟨past, ⟨r, there, -⟩ | ⟨-, ended⟩⟩ := current
    · cases there
    · refine ⟨past.trans later, ?_⟩
      by_cases triggered : older.result.triggeredLockout = true
      · rw [if_pos triggered] at ended ⊢
        exact ⟨rfl, ended.trans (later.trans le)⟩
      · rw [if_neg triggered] at ended ⊢
        exact .inr ⟨rfl, ended.trans_le (later.trans le)⟩

variable {r : FailureRecord} (streaks : Streaks config clock (some r) ts)

include streaks

theorem Streaks.newest :
    ∃ t rest, ts = t :: rest ∧ Tallied config t ∧ t.again ≤ clock ∧
      r.failed = t.result.failures ∧ r.lastFailureAt = t.now ∧
      (t.result.triggeredLockout = true → r.lockedUntil = t.now + config.lockoutDurationMs) ∧
      (0 < r.lockedUntil → t.result.triggeredLockout = true) ∧
      (t.result.triggeredLockout = true → 0 < r.lockedUntil) := by
  obtain ⟨-, tallied, current⟩ := streaks
  cases ts with
  | nil => cases current
  | cons t rest =>
    obtain ⟨past, ⟨r', same, failed, last, marked⟩ | ⟨gone, -⟩⟩ := current
    · cases same
      have tally := tallied t List.mem_cons_self
      refine ⟨t, rest, rfl, tally, past, failed, last, ?_, ?_, ?_⟩
      · intro triggered
        rw [marked, if_pos triggered]
      · intro isMarked
        by_contra quiet
        rw [marked, if_neg quiet] at isMarked
        exact absurd isMarked (Nat.lt_irrefl 0)
      · intro triggered
        rw [marked, if_pos triggered]
        exact Nat.add_pos_left tally.started _
    · cases gone

/-- A record without a deadline is short of the threshold, and its count goes on. -/
theorem Streaks.goesOn_of_unmarked (unmarked : r.lockedUntil = 0) (later : clock ≤ now) :
    r.failed < config.maxFailures ∧ ∀ older ∈ ts.head?, GoesOn config r now again older := by
  obtain ⟨t, rest, rfl, tally, past, failed, -, -, -, marks⟩ := streaks.newest
  have quiet : ¬ t.result.triggeredLockout = true := by
    intro triggered
    have := marks triggered
    omega
  have below : t.result.failures < config.maxFailures :=
    Nat.lt_of_le_of_ne tally.atMost (fun full => quiet (tally.triggers.mpr full))
  refine ⟨failed.trans_lt below, ?_⟩
  intro older head
  cases head
  refine ⟨past.trans later, ?_⟩
  rw [if_neg quiet]
  exact .inl failed

variable (window : config.lockoutDurationMs ≤ config.decayWindowMs)

include window

/-- A record that has expired or decayed is counted anew. -/
theorem Streaks.goesOn_of_stale (later : clock ≤ now)
    (stale : r.Expired again ∨ r.Decayed config again) :
    ∀ older ∈ ts.head?, GoesOn config emptyRecord now again older := by
  obtain ⟨t, rest, rfl, -, past, -, last, deadline, isLock, -⟩ := streaks.newest
  intro older head
  cases head
  refine ⟨past.trans later, ?_⟩
  rcases stale with expired | decayed
  · have triggered := isLock expired.1
    rw [if_pos triggered]
    exact ⟨rfl, deadline triggered ▸ expired.2⟩
  · have gap := decayed.2.2
    split
    · exact ⟨rfl, by omega⟩
    · exact .inr ⟨rfl, by omega⟩

/-- The sweep removes a record only once its lock has expired or its streak has
decayed. -/
theorem Streaks.sweep (later : clock ≤ now) (swept : r.Swept config now) :
    Streaks config now none ts := by
  obtain ⟨t, rest, rfl, tally, past, failed, last, deadline, isLock, -⟩ := streaks.newest
  refine ⟨streaks.follows, streaks.tallied, past.trans later, .inr ⟨rfl, ?_⟩⟩
  rcases swept with expired | ⟨-, decayed⟩
  · have triggered := isLock expired.1
    rw [if_pos triggered]
    exact deadline triggered ▸ expired.2
  · split <;> omega

omit streaks

/-- A failure of the identity either meets the lock, or is counted as the next
call of the streaks. -/
theorem Streaks.fail (streaks : Streaks config clock record ts) (positive : 1 ≤ config.maxFailures)
    (ticking : 0 < clock) (later : clock ≤ now) (le : now ≤ again) :
    let out := failRecord config (record.getD emptyRecord) now again
    let t : Try := ⟨now, again, out.2⟩
    Streaks config again (some out.1) (if t.counted then t :: ts else ts) := by
  have started : 0 < now := ticking.trans_le later
  rcases failRecord_cases config (record.getD emptyRecord) le with
    ⟨locked, -, held⟩ | ⟨unmarked, -, eq⟩ | ⟨stale, eq⟩
  · cases record with
    | none => exact absurd locked.1 (by simp [emptyRecord])
    | some r =>
      rw [held]
      exact streaks.later (later.trans le)
  · rw [eq]
    cases record with
    | none => exact streaks.count started le rfl positive (streaks.goesOn_of_none later le)
    | some r =>
      obtain ⟨below, goesOn⟩ := streaks.goesOn_of_unmarked unmarked later
      exact streaks.count started le unmarked below goesOn
  · rw [eq]
    cases record with
    | none => exact absurd stale (by simp [emptyRecord, FailureRecord.Expired, FailureRecord.Decayed])
    | some r =>
      exact streaks.count started le rfl positive (streaks.goesOn_of_stale window later stale)

variable (rt config) in
/-- The counted calls for an identity form streaks. -/
structure Streaking (id : String) (s : State) : Prop where
  ticking : 0 < s.clock
  streaks : Streaks config s.clock (record? rt s.tracker id)
    ((tries id s.history).filter Try.counted)

variable {id : String}

omit window

theorem Streaking.step (live : config.enabled = true ∧ id ≠ "") (positive : 1 ≤ config.maxFailures)
    (window : config.lockoutDurationMs ≤ config.decayWindowMs) (inv : Streaking rt config id s)
    (other : ¬ e.IsSuccessOf rt id) : Streaking rt config id (Lockout.step rt config s e) := by
  obtain ⟨ticking, streaks⟩ := inv
  have later := clock_le_step rt config s e
  refine ⟨ticking.trans_le later, ?_⟩
  cases e with
  | assess email wait => exact streaks.later later
  | recordFailure email ctx wait lag =>
    by_cases same : normalizeEmail rt email = id
    · have active : Active rt config email := ⟨live.1, same ▸ live.2⟩
      simp only [Lockout.step, recordFailure_eq active, record?_set, same, if_true]
      have counted := streaks.fail window positive ticking (Nat.le_add_right _ wait)
        (Nat.le_add_right _ lag)
      simpa only [tries, List.filterMap_cons, if_true, List.filter_cons] using counted
    · rcases record?_step rt config s (.recordFailure email ctx wait lag) id with
        kept | ⟨_, _, _, _, eq, -, named, -⟩ | ⟨success, -⟩ | ⟨_, _, eq, -⟩
      · rw [kept]
        simp only [Lockout.step, tries, List.filterMap_cons, if_neg same]
        exact streaks.later later
      · cases eq
        exact absurd named same
      · exact absurd success other
      · cases eq
  | recordSuccess email ctx =>
    rcases record?_step rt config s (.recordSuccess email ctx) id with
      kept | ⟨_, _, _, _, eq, -⟩ | ⟨success, -⟩ | ⟨_, _, eq, -⟩
    · rw [kept]
      exact streaks
    · cases eq
    · exact absurd success other
    · cases eq
  | sweep wait =>
    simp only [Lockout.step, record?_sweep]
    cases found : record? rt s.tracker id with
    | none =>
      rw [found] at streaks
      exact streaks.later later
    | some r =>
      rw [found] at streaks
      by_cases swept : r.Swept config (s.clock + wait)
      · rw [Option.filter_some_neg (by simpa using swept)]
        exact streaks.sweep window later swept
      · rw [Option.filter_some_pos (by simpa using swept)]
        exact streaks.later later

/-- Counting up from a lock: the count of a call is at most the number of calls
since the lock, and equal to it when none of them came after a gap. -/
theorem failures_le_length {first : Try} (triggered : first.result.triggeredLockout = true) :
    ∀ {ts : List Try} {t : Try}, (t :: (ts ++ [first])).IsChain (Follows config) →
      (∀ t' ∈ t :: ts, t'.now ≤ t'.again) → (∀ t' ∈ ts, t'.result.triggeredLockout = false) →
      t.result.failures ≤ (t :: ts).length ∧ first.now + config.lockoutDurationMs ≤ t.again ∧
      (Gapless config (t :: ts) → t.result.failures = (t :: ts).length) := by
  intro ts
  induction ts with
  | nil =>
    intro t follows ordered quiet
    obtain ⟨-, how⟩ := (List.isChain_cons_cons.mp follows).1
    rw [if_pos triggered] at how
    exact ⟨Nat.le_of_eq how.1, how.2, fun _ => how.1⟩
  | cons u ts ih =>
    intro t follows ordered quiet
    obtain ⟨⟨after, how⟩, rest⟩ := List.isChain_cons_cons.mp follows
    obtain ⟨bound, apart, exactly⟩ := ih rest (fun t' mem => ordered t' (List.mem_cons_of_mem t mem))
      (fun t' mem => quiet t' (List.mem_cons_of_mem u mem))
    have notTriggered : ¬ u.result.triggeredLockout = true := by
      rw [quiet u List.mem_cons_self]
      decide
    rw [if_neg notTriggered] at how
    have still := ordered t List.mem_cons_self
    refine ⟨?_, apart.trans (after.trans still), ?_⟩
    · rcases how with next | ⟨one, -⟩
      · rw [next]
        exact Nat.succ_le_succ bound
      · rw [one]
        exact Nat.succ_le_succ (Nat.zero_le _)
    · intro gapless
      obtain ⟨near, gapless⟩ := List.isChain_cons_cons.mp gapless
      rcases how with next | ⟨-, gap⟩
      · rw [next, exactly gapless]
        rfl
      · omega

theorem Consecutive.counted {all between : List Try} {first second : Try}
    (consecutive : Consecutive all first second between) :
    ∃ ts, countedUpTo second between = second :: ts ∧
      (∀ t ∈ ts, t.result.triggeredLockout = false) ∧
      second :: (ts ++ [first]) <:+: all.filter Try.counted := by
  obtain ⟨⟨later, earlier, split⟩, isFirst, isSecond, quiet⟩ := consecutive
  have countedFirst : first.counted = true := by
    simp [Try.counted, isFirst]
  have countedSecond : second.counted = true := by
    simp [Try.counted, isSecond]
  refine ⟨between.filter Try.counted, ?_, ?_, later.filter Try.counted,
    earlier.filter Try.counted, ?_⟩
  · rw [countedUpTo, List.filter_cons_of_pos countedSecond]
  · intro t mem
    exact quiet t (List.mem_filter.mp mem).1
  · rw [split]
    simp [List.filter_cons_of_pos countedFirst, List.filter_cons_of_pos countedSecond]

/-- Calls that the tracker ignores leave no record and trigger no lock. -/
def Quiet (rt : Runtime) (id : String) (s : State) : Prop :=
  record? rt s.tracker id = none ∧ ∀ t ∈ tries id s.history, t.result.triggeredLockout = false

theorem Quiet.step (ignored : ¬ (config.enabled = true ∧ id ≠ "")) (inv : Quiet rt id s) :
    Quiet rt id (Lockout.step rt config s e) := by
  obtain ⟨missing, quiet⟩ := inv
  have idle : ∀ {email : String}, normalizeEmail rt email = id → ¬ Active rt config email := by
    intro email same active
    exact ignored (same ▸ active)
  constructor
  · rcases record?_step rt config s e id with
      kept | ⟨_, _, _, _, -, active, same, -⟩ | ⟨-, gone⟩ | ⟨_, _, -, -, -, gone⟩
    · rw [kept, missing]
    · exact absurd active (idle same)
    · exact gone
    · exact gone
  · cases e with
    | assess email wait | recordSuccess email ctx => exact quiet
    | sweep wait => exact quiet
    | recordFailure email ctx wait lag =>
      by_cases same : normalizeEmail rt email = id
      · simp only [Lockout.step, recordFailure_of_not_active (idle same), tries,
          List.filterMap_cons, if_pos same]
        exact List.forall_mem_cons.mpr ⟨rfl, quiet⟩
      · simp only [Lockout.step, tries, List.filterMap_cons, if_neg same]
        exact quiet

theorem Streaking.boundsGuessing (inv : Streaking rt config id s) :
    BoundsGuessing rt config id s := by
  have streaks := inv.streaks
  have between : ∀ first second between, Consecutive (tries id s.history) first second between →
      config.maxFailures ≤ (countedUpTo second between).length ∧
      first.now + config.lockoutDurationMs ≤ second.again ∧
      (Gapless config (countedUpTo second between) →
        config.maxFailures = (countedUpTo second between).length) := by
    intro first second between consecutive
    obtain ⟨ts, eq, quiet, inside⟩ := consecutive.counted
    have tallied : ∀ t ∈ second :: ts, Tallied config t := by
      intro t mem
      refine streaks.tallied t (inside.subset ?_)
      exact List.mem_append_left _ mem
    have full := (tallied second List.mem_cons_self).triggers.mp consecutive.second
    rw [eq, ← full]
    have follows := List.IsChain.infix streaks.follows inside
    exact failures_le_length consecutive.first follows
      (fun t mem => (tallied t mem).ordered) quiet
  refine ⟨?_, fun first second ts h => (between first second ts h).2.1,
    fun first second ts h => (between first second ts h).1,
    fun first second ts h gapless => ((between first second ts h).2.2 gapless).symm⟩
  intro record found
  rw [found] at streaks
  obtain ⟨t, -, -, tally, -, failed, -, -, -, marks⟩ := streaks.newest
  rw [failed]
  exact ⟨tally.atMost, fun full => marks (tally.triggers.mpr full)⟩

theorem Quiet.boundsGuessing (inv : Quiet rt id s) : BoundsGuessing rt config id s := by
  obtain ⟨missing, quiet⟩ := inv
  have never : ∀ first second between, ¬ Consecutive (tries id s.history) first second between := by
    intro first second between consecutive
    obtain ⟨later, earlier, split⟩ := consecutive.split
    have := quiet second (by rw [split]; simp)
    rw [consecutive.second] at this
    cases this
  refine ⟨?_, fun first second ts h => absurd h (never first second ts),
    fun first second ts h => absurd h (never first second ts),
    fun first second ts h => absurd h (never first second ts)⟩
  intro record found
  rw [missing] at found
  cases found

/-- From lock to lock an identity is granted `maxFailures` failures, or more
only where the decay window passed between two of them. The distance of two
locks is taken from the first reading of the clock at the first to the second
reading at the second, which is the one that finds the first lock expired. -/
theorem lockout_bounds_guessing (rt : Runtime) (config : Config) (positive : 1 ≤ config.maxFailures)
    (window : config.lockoutDurationMs ≤ config.decayWindowMs) (id : String) (ms : Nat)
    (events : List Event) (others : ∀ e ∈ events, ¬ e.IsSuccessOf rt id) :
    BoundsGuessing rt config id (run (step rt config) (start ms) events) := by
  have along : Along (step rt config) (fun _ e => ¬ e.IsSuccessOf rt id) (start ms) events :=
    along_of_forall others
  by_cases live : config.enabled = true ∧ id ≠ ""
  · have streaking : Streaking rt config id (run (step rt config) (start ms) events) :=
      along.invariant (fun _ _ inv other => inv.step live positive window other)
        ⟨Nat.succ_pos ms, List.isChain_nil, by simp [start, tries], rfl⟩
    exact streaking.boundsGuessing
  · have quiet : Quiet rt id (run (step rt config) (start ms) events) :=
      run_invariant (fun _ _ inv => inv.step live) ⟨rfl, by simp [start, tries]⟩ events
    exact quiet.boundsGuessing

/-- Two failures lock for five milliseconds, and are forgotten after ten. -/
def shortConfig : Config :=
  { defaultConfig with maxFailures := 2, decayWindowMs := 10, lockoutDurationMs := 5 }

def twoLocks : List Event := burst "a" 2 ++ .assess "a" 5 :: burst "a" 2

/-- Under `shortConfig`: a first failure, and a second one, which locks. -/
def firstTry (ms : Nat) : Try := ⟨ms, ms, ⟨false, 1, 250, false⟩⟩
def lockingTry (ms : Nat) : Try := ⟨ms, ms, ⟨true, 2, 5000, true⟩⟩

theorem lockout_bounds_guessing_twoLocks :
    BoundsGuessing sampleRuntime shortConfig "a"
      (run (step sampleRuntime shortConfig) (start 0) twoLocks) ∧
    Consecutive (tries "a" (run (step sampleRuntime shortConfig) (start 0) twoLocks).history)
      (lockingTry 1) (lockingTry 6) [firstTry 6] :=
  ⟨lockout_bounds_guessing sampleRuntime shortConfig (by decide) (by decide) "a" 0 twoLocks
      (by simp [twoLocks, burst, Event.IsSuccessOf]),
    ⟨[], [firstTry 1], by decide +kernel⟩, rfl, rfl, by decide⟩

/-- One failure after the lock, and two more when it has decayed. -/
def decayedStreak : List Event :=
  burst "a" 2 ++ .assess "a" 5 :: burst "a" 1 ++ .assess "a" 11 :: burst "a" 2

/-- Each failure locks; the second call begins before the first lock expires,
and reads the clock again when it has. -/
def slowCall : List Event := [.recordFailure "a" {} 0 0, .recordFailure "a" {} 4 1]

/-- A failure that decayed is counted between two locks beyond `maxFailures`. A
call may stamp its lock less than a lock's duration after the lock before. And
where `maxFailures` is zero, no count equals it. -/
theorem guessing_not_bounded :
    ¬ (∀ first second between, Consecutive
        (tries "a" (run (step sampleRuntime shortConfig) (start 0) decayedStreak).history)
        first second between → (countedUpTo second between).length = shortConfig.maxFailures) ∧
    ¬ (∀ first second between, Consecutive
        (tries "a" (run (step sampleRuntime { shortConfig with maxFailures := 1 }) (start 0)
          slowCall).history)
        first second between → first.now + shortConfig.lockoutDurationMs ≤ second.now) ∧
    ¬ (∀ record, record? sampleRuntime
        (run (step sampleRuntime { shortConfig with maxFailures := 0 }) (start 0)
          (burst "a" 1)).tracker "a" = some record → record.failed ≤ 0) := by
  refine ⟨?_, ?_, ?_⟩
  · intro exactly
    exact absurd (exactly (lockingTry 1) (lockingTry 17) [firstTry 17, firstTry 6]
      ⟨⟨[], [firstTry 1], by decide +kernel⟩, rfl, rfl, by decide⟩) (by decide)
  · intro apart
    exact absurd (apart ⟨1, 1, ⟨true, 1, 5000, true⟩⟩ ⟨5, 6, ⟨true, 1, 5000, true⟩⟩ []
      ⟨⟨[], [], by decide +kernel⟩, rfl, rfl, by decide⟩) (by decide)
  · intro bounded
    exact absurd (bounded ⟨1, 1, 1, 0⟩ (by decide +kernel)) (by decide)

end TalentTrust.Auth.Lockout
