import TalentTrust.Audit.Entry
import TalentTrust.Lib.OrderedMap
import TalentTrust.Lib.Run

/-!
The account lockout: `auth/accountLockout.ts`.

The tracker counts consecutive failures of an identity, an email up to case and
surrounding space, and locks the identity for a fixed time when the count
reaches the threshold. A record goes away in four ways: a success deletes it,
a failure after the lock has expired or after the streak has decayed starts it
afresh, and the sweep deletes it in either of these cases. Decay is measured
from the last failure, whether or not the identity is locked, so a lock lasts
until its deadline exactly when the decay window does not end before it
(`lock_holds_iff`).

A run makes calls one after another. `recordFailure` reads the clock twice; a
call is given how far the clock has moved since the reading before.
-/

namespace TalentTrust.Auth.Lockout

open TalentTrust.Lib
open TalentTrust.Audit

/-! ### The platform -/

/-- What the tracker takes from its platform. -/
structure Runtime where
  toLowerCase : String → String
  sha256 : String → List UInt8
  /-- `Math.floor(Number(value))`, when that is finite. -/
  number : String → Option Int
  /-- `new Date(ms).toISOString()` for a time within the range of dates. -/
  isoTime : Nat → String
  lowerCase_eq_empty : ∀ {s : String}, toLowerCase s = "" → s = ""
  sha256_injective : Function.Injective sha256

variable (rt : Runtime)

/-- The last time a `Date` can hold. -/
def maxTime : Nat := 8640000000000000

/-- `new Date(ms).toISOString()`; `none` is a `RangeError`. -/
def toISOString (ms : Nat) : Option String := if ms ≤ maxTime then some (rt.isoTime ms) else none

/-! ### Configuration -/

structure Config where
  enabled : Bool
  maxFailures : Nat
  decayWindowMs : Nat
  lockoutDurationMs : Nat
  baseDelayMs : Nat
  delayMultiplier : Nat
  maxDelayMs : Nat
  deriving DecidableEq

def defaultConfig : Config where
  enabled := true
  maxFailures := 5
  decayWindowMs := 15 * 60 * 1000
  lockoutDurationMs := 15 * 60 * 1000
  baseDelayMs := 250
  delayMultiplier := 2
  maxDelayMs := 5000

/-- The variables `AUTH_LOCKOUT_ENABLED`, `AUTH_LOCKOUT_MAX_FAILURES` and so on. -/
structure Env where
  enabled : Option String := none
  maxFailures : Option String := none
  decayWindowMs : Option String := none
  lockoutDurationMs : Option String := none
  baseDelayMs : Option String := none
  delayMultiplier : Option String := none
  maxDelayMs : Option String := none

variable (value : Option String)

def toBool (fallback : Bool) : Bool :=
  match value with
  | none => fallback
  | some value =>
    let lower := rt.toLowerCase value
    if lower = "true" ∨ lower = "1" ∨ lower = "yes" then true
    else if lower = "false" ∨ lower = "0" ∨ lower = "no" then false
    else fallback

def toCount (fallback : Nat) : Nat :=
  match value with
  | none => fallback
  | some value =>
    match rt.number value with
    | none => fallback
    | some parsed => if parsed < 0 then fallback else parsed.toNat

def toMs (fallback : Nat) : Nat := toCount rt value fallback

def loadAccountLockoutConfig (env : Env) : Config :=
  let delayMultiplier := toCount rt env.delayMultiplier defaultConfig.delayMultiplier
  { enabled := toBool rt env.enabled true
    maxFailures := max 1 (toCount rt env.maxFailures defaultConfig.maxFailures)
    decayWindowMs := toMs rt env.decayWindowMs defaultConfig.decayWindowMs
    lockoutDurationMs := toMs rt env.lockoutDurationMs defaultConfig.lockoutDurationMs
    baseDelayMs := toMs rt env.baseDelayMs defaultConfig.baseDelayMs
    delayMultiplier :=
      if 1 ≤ delayMultiplier ∧ delayMultiplier ≤ 16 then delayMultiplier
      else defaultConfig.delayMultiplier
    maxDelayMs := toMs rt env.maxDelayMs defaultConfig.maxDelayMs }

theorem one_le_maxFailures (env : Env) : 1 ≤ (loadAccountLockoutConfig rt env).maxFailures :=
  Nat.le_max_left _ _

/-! ### Records -/

structure FailureRecord where
  failed : Nat
  firstFailureAt : Nat
  lastFailureAt : Nat
  /-- Lockout deadline; 0 when there is none. -/
  lockedUntil : Nat
  deriving DecidableEq

def emptyRecord : FailureRecord := ⟨0, 0, 0, 0⟩

namespace FailureRecord

variable (record : FailureRecord)

def Locked (now : Nat) : Prop :=
  0 < record.lockedUntil ∧ now < record.lockedUntil

def Expired (now : Nat) : Prop :=
  0 < record.lockedUntil ∧ record.lockedUntil ≤ now

def Decayed (config : Config) (now : Nat) : Prop :=
  0 < record.failed ∧ 0 < record.lastFailureAt ∧ config.decayWindowMs < now - record.lastFailureAt

/-- The record meets the test of `sweep`, which does not ask for a last failure. -/
def Swept (config : Config) (now : Nat) : Prop :=
  record.Expired now ∨ (0 < record.failed ∧ record.lastFailureAt < now - config.decayWindowMs)

instance (record : FailureRecord) (now : Nat) : Decidable (record.Locked now) :=
  inferInstanceAs (Decidable (_ ∧ _))

instance (record : FailureRecord) (now : Nat) : Decidable (record.Expired now) :=
  inferInstanceAs (Decidable (_ ∧ _))

instance (record : FailureRecord) (config : Config) (now : Nat) :
    Decidable (record.Decayed config now) :=
  inferInstanceAs (Decidable (_ ∧ _))

instance (record : FailureRecord) (config : Config) (now : Nat) :
    Decidable (record.Swept config now) :=
  inferInstanceAs (Decidable (_ ∨ _))

end FailureRecord

def computeDelay (config : Config) (failures : Nat) : Nat :=
  if failures = 0 then 0
  else min (config.baseDelayMs * config.delayMultiplier ^ (failures - 1)) config.maxDelayMs

def refreshInPlace (config : Config) (record : FailureRecord) (now : Nat) : FailureRecord :=
  if record.Expired now then emptyRecord
  else if record.Decayed config now then emptyRecord
  else record

structure AccountAssessment where
  isLocked : Bool
  failures : Nat
  remainingLockoutMs : Nat
  preDelayMs : Nat
  deriving DecidableEq

def zeroAssessment : AccountAssessment := ⟨false, 0, 0, 0⟩

/-- `assess` once the record is found. -/
def assessRecord (config : Config) (record : FailureRecord) (now : Nat) : AccountAssessment :=
  let liveFailures :=
    if record.Expired now then 0 else if record.Decayed config now then 0 else record.failed
  { isLocked := record.Locked now
    failures := liveFailures
    preDelayMs := if record.Locked now then config.maxDelayMs else computeDelay config liveFailures
    remainingLockoutMs := if record.Locked now then record.lockedUntil - now else 0 }

structure FailureRecordResult where
  isNowLocked : Bool
  failures : Nat
  waitMs : Nat
  triggeredLockout : Bool
  deriving DecidableEq

/-- `recordFailure` past the lock: the failure is counted. -/
def countFailure (config : Config) (record : FailureRecord) (now : Nat) :
    FailureRecord × FailureRecordResult :=
  let counted := { record with
    failed := record.failed + 1
    lastFailureAt := now
    firstFailureAt := if record.firstFailureAt = 0 then now else record.firstFailureAt }
  if counted.failed = config.maxFailures then
    let locked := { counted with lockedUntil := now + config.lockoutDurationMs }
    (locked, ⟨locked.Locked now, locked.failed, config.maxDelayMs, true⟩)
  else (counted, ⟨counted.Locked now, counted.failed, computeDelay config counted.failed, false⟩)

/-- `recordFailure` once the record is found. Whether the lock has expired and
the streak has decayed is decided on the second reading of the clock. -/
def failRecord (config : Config) (record : FailureRecord) (now again : Nat) :
    FailureRecord × FailureRecordResult :=
  let record := refreshInPlace config record again
  if record.Locked now then (record, ⟨true, record.failed, config.maxDelayMs, false⟩)
  else countFailure config record now

/-! ### The tracker -/

structure AuditContext where
  ipAddress : Option String := none
  correlationId : Option String := none
  deriving DecidableEq

structure Tracker where
  records : OrderedMap String FailureRecord
  audit : List CreateAuditEntryInput
  deriving DecidableEq

def normalizeEmail (email : String) : String := rt.toLowerCase (trim email)

/-- The storage key of a normalised email. -/
def key (id : String) : String := sha256Hex rt.sha256 id

def keyFor (raw : String) : Option String :=
  if normalizeEmail rt raw = "" then none else some (key rt (normalizeEmail rt raw))

def auditActor (rawEmail : String) : String :=
  if normalizeEmail rt rawEmail = "" then "unknown" else normalizeEmail rt rawEmail

variable (config : Config)

/-- The entry `emitTriggerAudit` logs. A deadline that no `Date` can hold makes
it throw before it logs anything, and the error is swallowed. -/
def emitTriggerAudit (rawEmail : String) (record : FailureRecord)
    (ctx : AuditContext) : List CreateAuditEntryInput :=
  match toISOString rt record.lockedUntil with
  | none => []
  | some lockedUntilIso =>
    [{ action := .authLockoutTriggered
       severity := .warning
       actor := auditActor rt rawEmail
       resource := "auth"
       resourceId := auditActor rt rawEmail
       metadata := [("failures", .num (.ofNat record.failed)),
         ("decayWindowMs", .num (.ofNat config.decayWindowMs)),
         ("lockoutDurationMs", .num (.ofNat config.lockoutDurationMs)),
         ("lockedUntilIso", .str lockedUntilIso), ("reason", .str "consecutive_failures")]
       ipAddress := ctx.ipAddress
       correlationId := ctx.correlationId }]

/-- The entry `emitReleaseAudit` logs. -/
def emitReleaseAudit (rawEmail : String) (previousFailures : Nat)
    (ctx : AuditContext) : List CreateAuditEntryInput :=
  [{ action := .authLockoutReleased
     severity := .info
     actor := auditActor rt rawEmail
     resource := "auth"
     resourceId := auditActor rt rawEmail
     metadata := [("previousFailures", .num (.ofNat previousFailures)),
       ("lockoutDurationMs", .num (.ofNat config.lockoutDurationMs)),
       ("reason", .str "successful_login")]
     ipAddress := ctx.ipAddress
     correlationId := ctx.correlationId }]

variable (t : Tracker) (rawEmail : String)

def assess (now : Nat) : AccountAssessment :=
  if config.enabled = false then zeroAssessment
  else
    match keyFor rt rawEmail with
    | none => zeroAssessment
    | some key =>
      match t.records.get? key with
      | none => zeroAssessment
      | some record => assessRecord config record now

def recordFailure (ctx : AuditContext) (now again : Nat) : FailureRecordResult × Tracker :=
  if config.enabled = false then (⟨false, 0, 0, false⟩, t)
  else
    match keyFor rt rawEmail with
    | none => (⟨false, 0, 0, false⟩, t)
    | some key =>
      let out := failRecord config ((t.records.get? key).getD emptyRecord) now again
      (out.2,
        { records := t.records.set key out.1
          audit := t.audit ++
            if out.2.triggeredLockout then emitTriggerAudit rt config rawEmail out.1 ctx else [] })

structure SuccessRecordResult where
  releasedLockout : Bool
  previousFailures : Nat
  deriving DecidableEq

def recordSuccess (ctx : AuditContext) : SuccessRecordResult × Tracker :=
  if config.enabled = false then (⟨false, 0⟩, t)
  else
    match keyFor rt rawEmail with
    | none => (⟨false, 0⟩, t)
    | some key =>
      match t.records.get? key with
      | none => (⟨false, 0⟩, t)
      | some record =>
        -- The marker counts even if the lock has expired.
        (⟨decide (0 < record.lockedUntil), record.failed⟩,
          { records := t.records.erase key
            audit := t.audit ++
              if 0 < record.lockedUntil then emitReleaseAudit rt config rawEmail record.failed ctx
              else [] })

/-- `sweep`, with the number of records removed. -/
def sweep (now : Nat) : Nat × Tracker :=
  let records := t.records.filter fun e => decide (¬ e.2.Swept config now)
  (t.records.size - records.size, { t with records })

/-! ### Runs -/

/-- A call of the tracker; `wait` and `lag` say how far the clock has moved
before the first reading and between the first and the second. -/
inductive Event where
  | assess (email : String) (wait : Nat)
  | recordFailure (email : String) (ctx : AuditContext) (wait lag : Nat)
  | recordSuccess (email : String) (ctx : AuditContext)
  | sweep (wait : Nat)
  deriving DecidableEq

/-- What a call of `recordFailure` or `recordSuccess` did, as history. -/
inductive Occurrence where
  | failure (id : String) (now again : Nat) (result : FailureRecordResult)
      (logged : List CreateAuditEntryInput)
  | success (id : String) (result : SuccessRecordResult) (logged : List CreateAuditEntryInput)
  deriving DecidableEq

/-- The last reading of the clock, the tracker, and the history, newest first. -/
structure State where
  clock : Nat
  tracker : Tracker
  history : List Occurrence
  deriving DecidableEq

/-- A fresh tracker; the clock counts milliseconds and is past 0. -/
def start (ms : Nat) : State := ⟨ms + 1, ⟨.empty, []⟩, []⟩

/-- The calls of `audit.log` between two states of the tracker. -/
def loggedBy (t t' : Tracker) : List CreateAuditEntryInput := t'.audit.drop t.audit.length

def step (s : State) : Event → State
  | .assess _ wait => { s with clock := s.clock + wait }
  | .recordFailure email ctx wait lag =>
    let now := s.clock + wait
    let out := recordFailure rt config s.tracker email ctx now (now + lag)
    { clock := now + lag
      tracker := out.2
      history := .failure (normalizeEmail rt email) now (now + lag) out.1
        (loggedBy s.tracker out.2) :: s.history }
  | .recordSuccess email ctx =>
    let out := recordSuccess rt config s.tracker email ctx
    { s with
      tracker := out.2
      history := .success (normalizeEmail rt email) out.1 (loggedBy s.tracker out.2) :: s.history }
  | .sweep wait =>
    { s with clock := s.clock + wait, tracker := (sweep config s.tracker (s.clock + wait)).2 }

/-! ### One record -/

variable {rt} {record : FailureRecord} {now : Nat} {again : Nat}

theorem not_expired_of_locked (le : now ≤ again) (locked : record.Locked again) :
    record.Locked now ∧ ¬ record.Expired again := by
  obtain ⟨marked, before⟩ := locked
  constructor
  · exact ⟨marked, Nat.lt_of_le_of_lt le before⟩
  · intro expired
    exact absurd expired.2 (Nat.not_le.mpr before)

variable (record) in
/-- A failure meets a lock and changes nothing, or it is counted: on from the
record when that carries no lock and has not decayed, and otherwise from zero. -/
theorem failRecord_cases (le : now ≤ again) :
    (record.Locked again ∧ ¬ record.Decayed config again ∧
      failRecord config record now again = (record, ⟨true, record.failed, config.maxDelayMs, false⟩)) ∨
    (record.lockedUntil = 0 ∧ ¬ record.Decayed config again ∧
      failRecord config record now again = countFailure config record now) ∨
    ((record.Expired again ∨ record.Decayed config again) ∧
      failRecord config record now again = countFailure config emptyRecord now) := by
  by_cases expired : record.Expired again
  · refine .inr (.inr ⟨.inl expired, ?_⟩)
    simp [failRecord, refreshInPlace, expired, emptyRecord, FailureRecord.Locked]
  by_cases decayed : record.Decayed config again
  · refine .inr (.inr ⟨.inr decayed, ?_⟩)
    simp [failRecord, refreshInPlace, expired, decayed, emptyRecord, FailureRecord.Locked]
  by_cases marked : 0 < record.lockedUntil
  · have locked : record.Locked again := by
      refine ⟨marked, ?_⟩
      by_contra past
      exact expired ⟨marked, Nat.not_lt.mp past⟩
    refine .inl ⟨locked, decayed, ?_⟩
    have lockedNow := (not_expired_of_locked le locked).1
    simp [failRecord, refreshInPlace, expired, decayed, lockedNow]
  · have unmarked : record.lockedUntil = 0 := by omega
    refine .inr (.inl ⟨unmarked, decayed, ?_⟩)
    have notLocked : ¬ record.Locked now := fun locked => marked locked.1
    simp [failRecord, refreshInPlace, expired, decayed, notLocked]

variable (now) in
/-- A counted failure: the count goes up by one, and the lock is set exactly
when it reaches the threshold. -/
theorem countFailure_spec (unmarked : record.lockedUntil = 0) :
    let out := countFailure config record now
    out.1.failed = record.failed + 1 ∧ out.1.lastFailureAt = now ∧
      out.2.failures = record.failed + 1 ∧
      (out.2.triggeredLockout = true ↔ record.failed + 1 = config.maxFailures) ∧
      out.1.lockedUntil =
        if record.failed + 1 = config.maxFailures then now + config.lockoutDurationMs else 0 := by
  unfold countFailure
  by_cases full : record.failed + 1 = config.maxFailures <;> simp [full, unmarked]

variable (now) in
theorem not_isNowLocked_countFailure (unmarked : record.lockedUntil = 0)
    (quiet : (countFailure config record now).2.triggeredLockout = false) :
    (countFailure config record now).2.isNowLocked = false := by
  unfold countFailure at quiet ⊢
  by_cases full : record.failed + 1 = config.maxFailures
  · simp [full] at quiet
  · simp [full, FailureRecord.Locked, unmarked]

/-! ### The record of an identity -/

variable (rt) in
def record? (t : Tracker) (id : String) : Option FailureRecord := t.records.get? (key rt id)

theorem key_injective {id id' : String} (same : key rt id = key rt id') : id = id' :=
  sha256Hex_injective rt.sha256_injective same

theorem key_eq_iff {id id' : String} : key rt id = key rt id' ↔ id = id' := ⟨key_injective, congrArg _⟩

variable (rt) in
/-- The tracker acts on calls for this email. -/
def Active (email : String) : Prop :=
  config.enabled = true ∧ normalizeEmail rt email ≠ ""

variable {config : Config} {email : String} {t : Tracker}

theorem assess_eq (active : Active rt config email) :
    assess rt config t email now =
      ((record? rt t (normalizeEmail rt email)).map (assessRecord config · now)).getD zeroAssessment := by
  obtain ⟨enabled, named⟩ := active
  unfold assess record?
  simp only [enabled, keyFor, named, if_false, Bool.true_eq_false]
  cases t.records.get? (key rt (normalizeEmail rt email)) <;> rfl

theorem keyFor_eq_none (idle : ¬ Active rt config email) (on : ¬ config.enabled = false) :
    keyFor rt email = none := by
  have unnamed : normalizeEmail rt email = "" := by
    by_contra named
    exact idle ⟨by simpa using on, named⟩
  simp [keyFor, unnamed]

theorem assess_of_not_active (idle : ¬ Active rt config email) :
    assess rt config t email now = zeroAssessment := by
  unfold assess
  split
  · rfl
  · rename_i on
    rw [keyFor_eq_none idle on]

variable {ctx : AuditContext}

theorem recordFailure_eq (active : Active rt config email) :
    recordFailure rt config t email ctx now again =
      let out := failRecord config
        ((record? rt t (normalizeEmail rt email)).getD emptyRecord) now again
      (out.2,
        { records := t.records.set (key rt (normalizeEmail rt email)) out.1
          audit := t.audit ++
            if out.2.triggeredLockout then emitTriggerAudit rt config email out.1 ctx else [] }) := by
  obtain ⟨enabled, named⟩ := active
  simp only [recordFailure, record?, enabled, keyFor, named, if_false, Bool.true_eq_false]
  rfl

theorem recordFailure_of_not_active (idle : ¬ Active rt config email) :
    recordFailure rt config t email ctx now again = (⟨false, 0, 0, false⟩, t) := by
  unfold recordFailure
  split
  · rfl
  · rename_i on
    rw [keyFor_eq_none idle on]

theorem recordSuccess_of_not_active (idle : ¬ Active rt config email) :
    recordSuccess rt config t email ctx = (⟨false, 0⟩, t) := by
  unfold recordSuccess
  split
  · rfl
  · rename_i on
    rw [keyFor_eq_none idle on]

theorem recordSuccess_of_none (missing : record? rt t (normalizeEmail rt email) = none) :
    recordSuccess rt config t email ctx = (⟨false, 0⟩, t) := by
  by_cases active : Active rt config email
  · simp only [record?] at missing
    simp [recordSuccess, active.1, keyFor, active.2, missing]
  · exact recordSuccess_of_not_active active

theorem recordSuccess_of_some (active : Active rt config email)
    (found : record? rt t (normalizeEmail rt email) = some record) :
    recordSuccess rt config t email ctx =
      (⟨decide (0 < record.lockedUntil), record.failed⟩,
        { records := t.records.erase (key rt (normalizeEmail rt email))
          audit := t.audit ++
            if 0 < record.lockedUntil then emitReleaseAudit rt config email record.failed ctx
            else [] }) := by
  simp only [record?] at found
  simp [recordSuccess, active.1, keyFor, active.2, found]

variable {audit : List CreateAuditEntryInput}

theorem record?_set {id id' : String} :
    record? rt ⟨t.records.set (key rt id) record, audit⟩ id' =
      if id' = id then some record else record? rt t id' := by
  simp [record?, OrderedMap.get?_set, key_eq_iff]

theorem record?_erase {id id' : String} :
    record? rt ⟨t.records.erase (key rt id), audit⟩ id' =
      if id' = id then none else record? rt t id' := by
  simp [record?, OrderedMap.get?_erase, key_eq_iff]

theorem record?_sweep (rt : Runtime) (config : Config) (t : Tracker) (now : Nat) (id : String) :
    record? rt (sweep config t now).2 id =
      (record? rt t id).filter fun record => decide (¬ record.Swept config now) := by
  simp only [record?, sweep]
  rw [OrderedMap.get?_filter]

def Event.IsSuccessOf (rt : Runtime) (id : String) : Event → Prop
  | .recordSuccess email _ => normalizeEmail rt email = id
  | _ => False

variable (rt config) in
theorem clock_le_step (s : State) (e : Event) : s.clock ≤ (step rt config s e).clock := by
  cases e with
  | assess email wait | sweep wait => exact Nat.le_add_right _ _
  | recordFailure email ctx wait lag =>
    simp only [step]
    omega
  | recordSuccess email ctx => exact Nat.le_refl _

variable (rt config) in
/-- What a call does to the record of an identity: nothing, unless it is a
failure or a success of that identity, or a sweep that removes it. -/
theorem record?_step (s : State) (e : Event) (id : String) :
    record? rt (step rt config s e).tracker id = record? rt s.tracker id ∨
    (∃ email ctx wait lag, e = .recordFailure email ctx wait lag ∧ Active rt config email ∧
      normalizeEmail rt email = id ∧
      record? rt (step rt config s e).tracker id =
        some (failRecord config ((record? rt s.tracker id).getD emptyRecord) (s.clock + wait)
          (s.clock + wait + lag)).1) ∨
    (e.IsSuccessOf rt id ∧ record? rt (step rt config s e).tracker id = none) ∨
    (∃ wait record, e = .sweep wait ∧ record? rt s.tracker id = some record ∧
      record.Swept config (s.clock + wait) ∧ record? rt (step rt config s e).tracker id = none) := by
  cases e with
  | assess email wait => exact .inl rfl
  | recordFailure email ctx wait lag =>
    by_cases active : Active rt config email
    · by_cases same : normalizeEmail rt email = id
      · refine .inr (.inl ⟨email, ctx, wait, lag, rfl, active, same, ?_⟩)
        simp [step, recordFailure_eq active, record?_set, same]
      · left
        simp only [step, recordFailure_eq active, record?_set]
        rw [if_neg (fun eq => same eq.symm)]
    · left
      simp [step, recordFailure_of_not_active active]
  | recordSuccess email ctx =>
    cases found : record? rt s.tracker (normalizeEmail rt email) with
    | none =>
      left
      simp [step, recordSuccess_of_none found]
    | some record =>
      by_cases active : Active rt config email
      · by_cases same : normalizeEmail rt email = id
        · refine .inr (.inr (.inl ⟨same, ?_⟩))
          simp [step, recordSuccess_of_some active found, record?_erase, same]
        · left
          simp only [step, recordSuccess_of_some active found, record?_erase]
          rw [if_neg (fun eq => same eq.symm)]
      · left
        simp [step, recordSuccess_of_not_active active]
  | sweep wait =>
    simp only [step, record?_sweep]
    cases found : record? rt s.tracker id with
    | none => exact .inl rfl
    | some record =>
      by_cases swept : record.Swept config (s.clock + wait)
      · refine .inr (.inr (.inr ⟨wait, record, rfl, rfl, swept, ?_⟩))
        exact Option.filter_some_neg (by simpa using swept)
      · left
        exact Option.filter_some_pos (by simpa using swept)

/-! ### Locks hold until their deadline -/

variable (rt config) in
/-- Once `recordFailure` has locked an identity at the time it read first,
`assess` finds it locked at every time before the deadline, whatever is called
in between, except a success of that identity. -/
def LockHolds : Prop :=
  ∀ ms before email ctx wait lag after email' wait',
    let s := run (step rt config) (start ms) before
    (recordFailure rt config s.tracker email ctx (s.clock + wait)
      (s.clock + wait + lag)).1.triggeredLockout = true →
    (∀ e ∈ after, ¬ e.IsSuccessOf rt (normalizeEmail rt email)) →
    normalizeEmail rt email' = normalizeEmail rt email →
    let s' := run (step rt config) (step rt config s (.recordFailure email ctx wait lag)) after
    s'.clock + wait' < s.clock + wait + config.lockoutDurationMs →
    (assess rt config s'.tracker email' (s'.clock + wait')).isLocked = true

variable (rt config) in
/-- The lock of `id` that ends at `deadline` is in place, or has ended. -/
def HeldTo (id : String) (deadline : Nat) (s : State) : Prop :=
  deadline ≤ s.clock ∨ ∃ record, record? rt s.tracker id = some record ∧
    record.lockedUntil = deadline ∧ record.lastFailureAt + config.lockoutDurationMs = deadline

theorem heldTo_of_triggered {s : State} {wait lag : Nat}
    (triggered : (recordFailure rt config s.tracker email ctx (s.clock + wait)
      (s.clock + wait + lag)).1.triggeredLockout = true) :
    Active rt config email ∧
    HeldTo rt config (normalizeEmail rt email) (s.clock + wait + config.lockoutDurationMs)
      (step rt config s (.recordFailure email ctx wait lag)) := by
  by_cases active : Active rt config email
  · refine ⟨active, .inr ?_⟩
    rw [recordFailure_eq active] at triggered
    simp only [step, recordFailure_eq active, record?_set, if_true]
    refine ⟨_, rfl, ?_⟩
    generalize (record? rt s.tracker (normalizeEmail rt email)).getD emptyRecord = record at triggered ⊢
    obtain ⟨base, unmarked, counted⟩ : ∃ base : FailureRecord, base.lockedUntil = 0 ∧
        failRecord config record (s.clock + wait) (s.clock + wait + lag) =
          countFailure config base (s.clock + wait) := by
      rcases failRecord_cases config record (Nat.le_add_right (s.clock + wait) lag) with
        ⟨-, -, held⟩ | ⟨unmarked, -, counted⟩ | ⟨-, counted⟩
      · simp [held] at triggered
      · exact ⟨_, unmarked, counted⟩
      · exact ⟨_, rfl, counted⟩
    obtain ⟨-, last, -, full, marked⟩ := countFailure_spec config (s.clock + wait) unmarked
    rw [counted] at triggered ⊢
    rw [if_pos (full.mp triggered)] at marked
    exact ⟨marked, by rw [last]⟩
  · rw [recordFailure_of_not_active active] at triggered
    cases triggered

variable (window : config.lockoutDurationMs ≤ config.decayWindowMs + 1)

include window

/-- While the decay window reaches as far as the lock, no call but a success
takes a lock away before its deadline. -/
theorem HeldTo.step {id : String} {deadline : Nat} {s : State} {e : Event}
    (held : HeldTo rt config id deadline s) (other : ¬ e.IsSuccessOf rt id) :
    HeldTo rt config id deadline (Lockout.step rt config s e) := by
  have later := clock_le_step rt config s e
  rcases held with ended | ⟨record, found, marked, since⟩
  · exact .inl (ended.trans later)
  by_cases ended : deadline ≤ (Lockout.step rt config s e).clock
  · exact .inl ended
  right
  rcases record?_step rt config s e id with
    same | ⟨email, ctx, wait, lag, rfl, -, -, failed⟩ | ⟨success, -⟩ | ⟨wait, swept, rfl, found', gone, -⟩
  · exact ⟨record, same.trans found, marked, since⟩
  · simp only [Lockout.step] at ended
    rw [found, Option.getD_some] at failed
    -- Before the deadline the record is locked, and the window has not passed.
    rcases failRecord_cases config record (Nat.le_add_right (s.clock + wait) lag) with
      ⟨-, -, kept⟩ | ⟨unmarked, -, -⟩ | ⟨expired | decayed, -⟩
    · rw [kept] at failed
      exact ⟨record, failed, marked, since⟩
    · omega
    · have := expired.2
      omega
    · have := decayed.2.2
      omega
  · exact absurd success other
  · simp only [Lockout.step] at ended
    cases found.symm.trans found'
    rcases gone with expired | ⟨-, decayed⟩
    · have := expired.2
      omega
    · omega

theorem HeldTo.run {id : String} {deadline : Nat} {s : State} {events : List Event}
    (held : HeldTo rt config id deadline s) (others : ∀ e ∈ events, ¬ e.IsSuccessOf rt id) :
    HeldTo rt config id deadline (Lib.run (Lockout.step rt config) s events) :=
  (along_of_forall others).invariant (fun _ _ held other => held.step window other) held

omit window

/-! ### Locks that do not -/

/-- Failures of one identity in a row, without the clock moving. -/
def burst (email : String) (n : Nat) : List Event := List.replicate n (.recordFailure email {} 0 0)

theorem run_burst (active : Active rt config email) (ms : Nat) :
    ∀ n, n < config.maxFailures →
      (run (step rt config) (start ms) (burst email n)).clock = ms + 1 ∧
      record? rt (run (step rt config) (start ms) (burst email n)).tracker (normalizeEmail rt email) =
        if n = 0 then none else some ⟨n, ms + 1, ms + 1, 0⟩ := by
  intro n
  induction n with
  | zero =>
    intro _
    exact ⟨rfl, rfl⟩
  | succ n ih =>
    intro below
    obtain ⟨clock, found⟩ := ih (Nat.lt_of_succ_lt below)
    have split : burst email (n + 1) = burst email n ++ [.recordFailure email {} 0 0] :=
      List.replicate_succ'
    rw [split, run_append]
    simp only [run_cons, run_nil, step, recordFailure_eq active, record?_set, if_true, clock, found]
    refine ⟨trivial, ?_⟩
    have notFull : n + 1 ≠ config.maxFailures := Nat.ne_of_lt below
    rcases Nat.eq_zero_or_pos n with rfl | pos
    · simp [failRecord, refreshInPlace, countFailure, emptyRecord, FailureRecord.Expired,
        FailureRecord.Decayed, FailureRecord.Locked, notFull]
    · have nonzero : n ≠ 0 := Nat.ne_of_gt pos
      simp [failRecord, refreshInPlace, countFailure, FailureRecord.Expired,
        FailureRecord.Decayed, FailureRecord.Locked, notFull, nonzero]

theorem burst_triggers (active : Active rt config email) (positive : 1 ≤ config.maxFailures)
    (ms : Nat) : let s := run (step rt config) (start ms) (burst email (config.maxFailures - 1))
    let out := recordFailure rt config s.tracker email {} (s.clock + 0) (s.clock + 0 + 0)
    s.clock = ms + 1 ∧ out.1.triggeredLockout = true ∧
      ∃ record, record? rt out.2 (normalizeEmail rt email) = some record ∧
        0 < record.failed ∧ record.lastFailureAt = ms + 1 := by
  obtain ⟨clock, found⟩ := run_burst active ms (config.maxFailures - 1) (by omega)
  have full : config.maxFailures - 1 + 1 = config.maxFailures := Nat.sub_add_cancel positive
  simp only [recordFailure_eq active, record?_set, if_true, clock, found]
  refine ⟨trivial, ?_⟩
  rcases Nat.eq_zero_or_pos (config.maxFailures - 1) with zero | pos
  · have one : config.maxFailures = 1 := by omega
    simp [failRecord, refreshInPlace, countFailure, emptyRecord, FailureRecord.Expired,
      FailureRecord.Decayed, FailureRecord.Locked, one]
  · have nonzero : config.maxFailures - 1 ≠ 0 := Nat.ne_of_gt pos
    have some : 0 < config.maxFailures := positive
    simp [failRecord, refreshInPlace, countFailure, FailureRecord.Expired, FailureRecord.Decayed,
      FailureRecord.Locked, full, nonzero, some]

theorem normalizeEmail_ne_empty (rt : Runtime) : normalizeEmail rt "a" ≠ "" := by
  intro empty
  exact absurd (rt.lowerCase_eq_empty empty) (by decide)

/-- When the decay window ends two milliseconds before a lock or earlier, a
sweep in between removes the lock. -/
theorem not_lockHolds (enabled : config.enabled = true) (positive : 1 ≤ config.maxFailures)
    (short : config.decayWindowMs + 2 ≤ config.lockoutDurationMs) : ¬ LockHolds rt config := by
  intro holds
  have active : Active rt config "a" := ⟨enabled, normalizeEmail_ne_empty rt⟩
  obtain ⟨clock, triggered, record, found, failed, last⟩ := burst_triggers active positive 0
  have locked := holds 0 (burst "a" (config.maxFailures - 1)) "a" {} 0 0
    [.sweep (config.decayWindowMs + 1)] "a" 0 triggered (by simp [Event.IsSuccessOf]) rfl
  simp only [run_cons, run_nil, step, clock] at locked
  have swept : record.Swept config (0 + 1 + 0 + 0 + (config.decayWindowMs + 1)) := by
    right
    omega
  have removed := record?_sweep rt config
    (recordFailure rt config (run (step rt config) (start 0)
      (burst "a" (config.maxFailures - 1))).tracker "a" {} (0 + 1 + 0) (0 + 1 + 0 + 0)).2
    (0 + 1 + 0 + 0 + (config.decayWindowMs + 1)) (normalizeEmail rt "a")
  rw [clock] at found
  rw [found, Option.filter_some_neg (by simpa using swept)] at removed
  rw [assess_eq active, removed] at locked
  exact absurd (locked (by omega)) (by simp [zeroAssessment])

/-! ### The main result -/

/-- A lock holds until its deadline exactly when the decay window does not end
more than a millisecond before it. -/
theorem lock_holds_iff (rt : Runtime) (env : Env)
    (enabled : (loadAccountLockoutConfig rt env).enabled = true) :
    LockHolds rt (loadAccountLockoutConfig rt env) ↔
      (loadAccountLockoutConfig rt env).lockoutDurationMs ≤
        (loadAccountLockoutConfig rt env).decayWindowMs + 1 := by
  constructor
  · intro holds
    by_contra short
    exact not_lockHolds enabled (one_le_maxFailures rt env) (by omega) holds
  · intro window ms before email ctx wait lag after email' wait' s triggered others same s' early
    obtain ⟨⟨on, named⟩, held⟩ := heldTo_of_triggered triggered
    rcases held.run window others with ended | ⟨record, found, marked, -⟩
    · exact absurd (Nat.le_trans ended (Nat.le_add_right _ wait')) (Nat.not_le.mpr early)
    · have active : Active rt (loadAccountLockoutConfig rt env) email' := ⟨on, same ▸ named⟩
      rw [assess_eq active, same, found]
      have locked : record.Locked (s'.clock + wait') := by
        constructor <;> omega
      simp [assessRecord, locked]

/-- Decimal digits, and hashes that are the bytes of the text. -/
def sampleRuntime : Runtime where
  toLowerCase := id
  sha256 := utf8Bytes
  number := fun s => some (Int.ofNat (s.toList.foldl (fun n c => 10 * n + (c.toNat - 48)) 0))
  isoTime := fun _ => "2024-01-01T00:00:00.000Z"
  lowerCase_eq_empty := fun empty => empty
  sha256_injective := utf8Bytes_injective

theorem lock_holds_iff_default :
    LockHolds sampleRuntime (loadAccountLockoutConfig sampleRuntime {}) :=
  (lock_holds_iff sampleRuntime {} (by decide)).mpr (by decide)

/-- A lock of fifteen minutes under a decay window of one minute: five failures
lock the account, and the sweep a minute later unlocks it. -/
theorem lock_lost_to_sweep :
    ¬ LockHolds sampleRuntime (loadAccountLockoutConfig sampleRuntime
      { decayWindowMs := some "60000", lockoutDurationMs := some "900000" }) := by
  intro holds
  have locked := holds 0 (burst "a" 4) "a" {} 0 0 [.sweep 60001] "a" 0 (by decide +kernel)
    (by simp [Event.IsSuccessOf]) rfl (by decide +kernel)
  exact absurd locked (by decide +kernel)

end TalentTrust.Auth.Lockout
