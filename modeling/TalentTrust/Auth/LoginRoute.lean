import TalentTrust.Lib.Calls
import TalentTrust.Auth.Lockout
import TalentTrust.Auth.Rotation

/-!
The login route together with the account lockout.

The handler assesses the identity, checks the password, and waits. When it goes
on it assesses the identity again after a right password, or records a failure
after a wrong one. A locked identity is answered alike in both cases, and both
leave the tracker as it is, so two runs that differ in the passwords tried
during a lock have the same trackers (`locked_login_reveals_nothing`). The
answer does tell whether a password passes the schema, and, on a server that
has no secret to sign with, whether it is right.
-/

namespace TalentTrust.Auth.LoginRoute

open TalentTrust.Lib
open TalentTrust.Auth.Lockout (AuditContext AccountAssessment Tracker Config FailureRecord)
open TalentTrust.Auth.Rotation (Failure loginCall login_cases)

/-! ### The handler -/

/-- The platform of the service, with what the lockout takes from it. -/
structure Host extends Platform where
  number : String → Option Int
  isoTime : Nat → String
  lowerCase_eq_empty : ∀ {s : String}, toLowerCase s = "" → s = ""

def Host.runtime (host : Host) : Lockout.Runtime where
  toLowerCase := host.toLowerCase
  sha256 := host.sha256
  number := host.number
  isoTime := host.isoTime
  lowerCase_eq_empty := host.lowerCase_eq_empty
  sha256_injective := host.sha256_injective

/-- A response, and the time since the start of the request to which it is
held back by `padResponseTime`. -/
structure Reply where
  response : Response
  padMs : Nat
  deriving DecidableEq

inductive Progress where
  /-- The password has been checked, and the handler awaits the result. -/
  | waiting (email : String) (ctx : AuditContext) (pre : AccountAssessment)
      (result : Except Failure AuthTokens)
  | answered (reply : Reply)

structure Attempt where
  body : Json
  progress : Progress

structure State where
  clock : Nat
  tracker : Tracker
  sessions : Sessions
  attempts : List Attempt

def start (users : List UserAuthRow) (ms : Nat) : State := ⟨ms, ⟨.empty, []⟩, ⟨users, 0, []⟩, []⟩

variable (host : Host) (config : Config) (secret : Bool)

def rejected : Response := authError 401 "invalid_credentials" "Request validation failed"

/-- The handler up to the `await`: `assess` reads the clock, then the service does. -/
def beginLogin (s : State) (body : Json) (ctx : AuditContext) (now again : Nat) :
    Progress × Sessions :=
  match loginSchema host.toPlatform body with
  | none => (.answered ⟨⟨400, host.validationError body⟩, 0⟩, s.sessions)
  | some (email, password) =>
    let pre := Lockout.assess host.runtime config s.tracker email now
    let (result, sessions) := loginCall host.toPlatform s.sessions email password secret again
    (.waiting email ctx pre result, sessions)

/-- The handler from the `await` on. -/
def finishLogin (tracker : Tracker) (email : String) (ctx : AuditContext) (pre : AccountAssessment)
    (result : Except Failure AuthTokens) (now again : Nat) : Reply × Tracker :=
  match result with
  | .ok tokens =>
    if (Lockout.assess host.runtime config tracker email now).isLocked then
      (⟨rejected, pre.preDelayMs⟩, tracker)
    else
      (⟨tokensResponse tokens, pre.preDelayMs⟩,
        (Lockout.recordSuccess host.runtime config tracker email ctx).2)
  | .error .invalidCredentials =>
    let out := Lockout.recordFailure host.runtime config tracker email ctx now again
    (⟨rejected, out.1.waitMs⟩, out.2)
  | .error _ => (⟨authError 500 "internal_error" "An unexpected error occurred.", 0⟩, tracker)

/-- `wait` and `lag` say how far the clock has moved before the first reading
and between the first and the second. -/
inductive Event where
  | start (body : Json) (ctx : AuditContext) (wait lag : Nat)
  /-- The handler of attempt `i` goes on. -/
  | finish (i : Nat) (wait lag : Nat)
  | sweep (wait : Nat)

def step (s : State) : Event → State
  | .start body ctx wait lag =>
    let now := s.clock + wait
    let (progress, sessions) := beginLogin host config secret s body ctx now (now + lag)
    { s with clock := now + lag, sessions, attempts := s.attempts ++ [⟨body, progress⟩] }
  | .finish i wait lag =>
    let now := s.clock + wait
    match s.attempts[i]? with
    | some ⟨body, .waiting email ctx pre result⟩ =>
      let (reply, tracker) := finishLogin host config s.tracker email ctx pre result now (now + lag)
      { s with
        clock := now + lag
        tracker
        attempts := s.attempts.set i ⟨body, .answered reply⟩ }
    | _ => { s with clock := now + lag }
  | .sweep wait =>
    { s with
      clock := s.clock + wait
      tracker := (Lockout.sweep config s.tracker (s.clock + wait)).2 }

/-! ### Two runs -/

def IsLocked (tracker : Tracker) (email : String) (now : Nat) : Prop :=
  (Lockout.assess host.runtime config tracker email now).isLocked = true

instance (tracker : Tracker) (email : String) (now : Nat) :
    Decidable (IsLocked host config tracker email now) :=
  inferInstanceAs (Decidable (_ = true))

/-- Two attempts for the identity `id` that differ in their passwords. -/
def DifferentPasswords (id email : String) (body body' : Json) : Prop :=
  Lockout.normalizeEmail host.runtime email = id ∧
  ∃ password password', loginSchema host.toPlatform body = some (email, password) ∧
    loginSchema host.toPlatform body' = some (email, password')

/-- The events are the same but for the passwords of attempts for `id` that
start and finish while `id` is locked. -/
def Alike (id : String) (s : State × State) : Event × Event → Prop
  | (.start body ctx wait lag, .start body' ctx' wait' lag') =>
    ctx = ctx' ∧ wait = wait' ∧ lag = lag' ∧
      (body ≠ body' → ∃ email, DifferentPasswords host id email body body' ∧
        IsLocked host config s.1.tracker email (s.1.clock + wait))
  | (.finish i wait lag, .finish i' wait' lag') =>
    i = i' ∧ wait = wait' ∧ lag = lag' ∧
      ∀ attempt attempt', s.1.attempts[i]? = some attempt → s.2.attempts[i]? = some attempt' →
        attempt.body ≠ attempt'.body →
        ∃ email, DifferentPasswords host id email attempt.body attempt'.body ∧
          IsLocked host config s.1.tracker email (s.1.clock + wait + lag)
  | (.sweep wait, .sweep wait') => wait = wait'
  | _ => False

/-- The answer of the attempt at position `i`, once it has one. -/
def State.reply? (s : State) (i : Nat) : Option Reply :=
  match s.attempts[i]? with
  | some ⟨_, .answered reply⟩ => some reply
  | _ => none

/-- Nothing about the passwords shows: the trackers are equal, and attempts with
different passwords are answered alike, at the same time. -/
structure RevealsNothing (s s' : State) : Prop where
  tracker : s.tracker = s'.tracker
  replies : ∀ i attempt attempt', s.attempts[i]? = some attempt → s'.attempts[i]? = some attempt' →
    attempt.body ≠ attempt'.body →
    s.reply? i = s'.reply? i ∧ ∀ reply ∈ s.reply? i, reply = ⟨rejected, config.maxDelayMs⟩

variable {host config secret}

/-! ### What the service shows -/

/-- The row without the column that logging in writes. -/
def withoutSession (row : UserAuthRow) : UserAuthRow := { row with refreshTokenHash := none }

def SameAccounts (s s' : Sessions) : Prop :=
  s.users.map withoutSession = s'.users.map withoutSession

theorem setRefreshTokenHash_withoutSession (id : String) (hash : Option String)
    (users : List UserAuthRow) :
    (setRefreshTokenHash id hash users).map withoutSession = users.map withoutSession := by
  rw [setRefreshTokenHash, List.map_map]
  apply List.map_congr_left
  intro row _
  simp only [Function.comp_apply]
  split <;> rfl

/-- The row that `login` accepts the password for. -/
def loginRow (p : Platform) (users : List UserAuthRow) (email password : String) : Option UserAuthRow :=
  (users.find? fun row => row.email = normalizeEmail p email).filter fun row =>
    verifyPassword p password (row.passwordHash.getD
      (String.ofList (List.replicate 32 'a') ++ ":" ++ String.ofList (List.replicate 128 'b')))

theorem loginCall_eq (p : Platform) (s : Sessions) (email password : String) (secret : Bool)
    (now : Int) : loginCall p s email password secret now =
      match loginRow p s.users email password with
      | none => (.error .invalidCredentials, s)
      | some row =>
        if secret then (.ok (issueTokens p s row now).1, (issueTokens p s row now).2)
        else (.error .unexpected, s) := by
  unfold loginCall login loginRow
  cases s.users.find? fun row => row.email = normalizeEmail p email with
  | none => rfl
  | some row =>
    simp only [Option.filter]
    split_ifs <;> rfl

/-- Logging in writes nothing but the session of a user. -/
theorem loginCall_withoutSession (p : Platform) (s : Sessions) (email password : String)
    (secret : Bool) (now : Int) :
    (loginCall p s email password secret now).2.users.map withoutSession =
      s.users.map withoutSession := by
  unfold loginCall
  rcases login_cases s email password now with failed | ⟨row, -, issued⟩
  · rw [failed]
  · rw [issued]
    cases secret with
    | false => rfl
    | true => exact setRefreshTokenHash_withoutSession _ _ _

def failure? : Except Failure AuthTokens → Option Failure
  | .ok _ => none
  | .error failure => some failure

/-- Whether a login fails, and how, does not depend on sessions. -/
theorem failure?_loginCall {p : Platform} {s s' : Sessions} (same : SameAccounts s s')
    (email password : String) (secret : Bool) (now : Int) :
    failure? (loginCall p s email password secret now).1 =
      failure? (loginCall p s' email password secret now).1 := by
  have accepts : ∀ users, (loginRow p (users.map withoutSession) email password).isSome =
      (loginRow p users email password).isSome := by
    intro users
    unfold loginRow
    rw [List.find?_map, Option.filter_map, Option.isSome_map]
    rfl
  have both := (accepts s.users).symm.trans (same ▸ accepts s'.users)
  rw [loginCall_eq, loginCall_eq]
  cases here : loginRow p s.users email password <;>
    cases there : loginRow p s'.users email password <;> rw [here, there] at both
  · cases both
  · cases both
  · cases secret <;> rfl

theorem failure?_loginCall_cases (p : Platform) (s : Sessions) (email password : String) (now : Int) :
    failure? (loginCall p s email password true now).1 = none ∨
    failure? (loginCall p s email password true now).1 = some .invalidCredentials := by
  unfold loginCall
  rcases login_cases s email password now with failed | ⟨row, -, issued⟩
  · rw [failed]
    exact .inr rfl
  · rw [issued]
    exact .inl rfl

/-! ### What the tracker shows -/

/-- Locks end at most a lock's duration after the last failure. -/
def Timed (config : Config) (t : Tracker) : Prop :=
  ∀ k record, t.records.get? k = some record → 0 < record.lockedUntil →
    record.lockedUntil ≤ record.lastFailureAt + config.lockoutDurationMs

theorem timed_start : Timed config ⟨.empty, []⟩ := by
  intro k record found
  cases found

open TalentTrust.Auth.Lockout

variable {t : Tracker} {now again : Nat} (timed : Timed config t)

include timed

variable (email : String) (ctx : AuditContext)

theorem Timed.recordFailure {rt : Runtime} (le : now ≤ again) :
    Timed config (Lockout.recordFailure rt config t email ctx now again).2 := by
  by_cases active : Active rt config email
  · rw [recordFailure_eq active]
    intro k record found marked
    simp only [OrderedMap.get?_set] at found
    split at found
    · cases found
      rcases failRecord_cases config _ le with ⟨locked, -, kept⟩ | ⟨unmarked, -, eq⟩ | ⟨-, eq⟩
      · rw [kept]
        cases old : record? rt t (Lockout.normalizeEmail rt email) with
        | none =>
          rw [old] at locked
          exact absurd locked.1 (by simp [emptyRecord])
        | some record =>
          rw [old] at locked
          exact timed _ record old locked.1
      · obtain ⟨-, last, -, -, deadline⟩ := countFailure_spec config now unmarked
        rw [eq] at marked ⊢
        rw [deadline]
        split <;> omega
      · obtain ⟨-, last, -, -, deadline⟩ := countFailure_spec config now
          (show emptyRecord.lockedUntil = 0 from rfl)
        rw [eq] at marked ⊢
        rw [deadline]
        split <;> omega
    · exact timed k record found marked
  · rw [recordFailure_of_not_active active]
    exact timed

theorem Timed.recordSuccess {rt : Runtime} : Timed config (Lockout.recordSuccess rt config t email ctx).2 := by
  cases found : record? rt t (Lockout.normalizeEmail rt email) with
  | none =>
    rw [recordSuccess_of_none found]
    exact timed
  | some record =>
    by_cases active : Active rt config email
    · rw [recordSuccess_of_some active found]
      intro k record' kept
      rw [OrderedMap.get?_erase] at kept
      split at kept
      · cases kept
      · exact timed k record' kept
    · rw [recordSuccess_of_not_active active]
      exact timed

theorem Timed.sweep (now : Nat) : Timed config (Lockout.sweep config t now).2 := by
  intro k record found
  rw [Lockout.sweep, OrderedMap.get?_filter, Option.filter_eq_some_iff] at found
  exact timed k record found.1

theorem Timed.finishLogin
    (pre : AccountAssessment) (result : Except Failure AuthTokens) (le : now ≤ again) :
    Timed config (LoginRoute.finishLogin host config t email ctx pre result now again).2 := by
  unfold LoginRoute.finishLogin
  split
  · split
    · exact timed
    · exact timed.recordSuccess email ctx
  · exact timed.recordFailure email ctx le
  · exact timed

omit timed

variable {email : String}

theorem IsLocked.record (isLocked : IsLocked host config t email now) :
    Active host.runtime config email ∧
    ∃ record, record? host.runtime t (Lockout.normalizeEmail host.runtime email) = some record ∧
      record.Locked now := by
  unfold IsLocked at isLocked
  by_cases active : Active host.runtime config email
  · refine ⟨active, ?_⟩
    rw [assess_eq active] at isLocked
    cases found : record? host.runtime t (Lockout.normalizeEmail host.runtime email) with
    | none =>
      rw [found] at isLocked
      cases isLocked
    | some record =>
      rw [found] at isLocked
      exact ⟨record, rfl, by simpa [assessRecord] using isLocked⟩
  · rw [assess_of_not_active active] at isLocked
    cases isLocked

theorem IsLocked.mono (le : now ≤ again) (isLocked : IsLocked host config t email again) :
    IsLocked host config t email now := by
  obtain ⟨active, record, found, locked⟩ := isLocked.record
  have lockedNow := (not_expired_of_locked le locked).1
  unfold IsLocked
  rw [assess_eq active, found]
  simpa [assessRecord] using lockedNow

theorem IsLocked.preDelayMs (isLocked : IsLocked host config t email now) :
    (assess host.runtime config t email now).preDelayMs = config.maxDelayMs := by
  obtain ⟨active, record, found, locked⟩ := isLocked.record
  rw [assess_eq active, found]
  simp [assessRecord, locked]

/-- A failure during a lock changes nothing: a lock does not outlast the decay
window. -/
theorem IsLocked.recordFailure (window : config.lockoutDurationMs ≤ config.decayWindowMs)
    (timed : Timed config t) (ctx : AuditContext) (le : now ≤ again)
    (isLocked : IsLocked host config t email again) :
    (Lockout.recordFailure host.runtime config t email ctx now again).2 = t ∧
    (Lockout.recordFailure host.runtime config t email ctx now again).1.waitMs = config.maxDelayMs := by
  obtain ⟨active, record, found, locked⟩ := isLocked.record
  have deadline := timed _ record found locked.1
  rw [recordFailure_eq active, found]
  rcases failRecord_cases config record le with
    ⟨-, -, kept⟩ | ⟨unmarked, -, -⟩ | ⟨expired | decayed, -⟩
  · simp only [Option.getD_some, kept]
    rw [OrderedMap.set_of_get? found]
    simp
  · exact absurd unmarked (Nat.ne_of_gt locked.1)
  · exact absurd expired.2 (Nat.not_le.mpr locked.2)
  · have gap := decayed.2.2
    have before := locked.2
    omega

/-- A locked identity is turned away alike whether the password was right. -/
theorem IsLocked.finishLogin (window : config.lockoutDurationMs ≤ config.decayWindowMs)
    (timed : Timed config t) (ctx : AuditContext) {pre : AccountAssessment}
    {result : Except Failure AuthTokens} (le : now ≤ again)
    (isLocked : IsLocked host config t email again) (padded : pre.preDelayMs = config.maxDelayMs)
    (checked : failure? result = none ∨ failure? result = some .invalidCredentials) :
    LoginRoute.finishLogin host config t email ctx pre result now again =
      (⟨rejected, config.maxDelayMs⟩, t) := by
  cases result with
  | ok tokens =>
    have lockedNow : (assess host.runtime config t email now).isLocked = true :=
      isLocked.mono le
    simp [LoginRoute.finishLogin, lockedNow, padded]
  | error failure =>
    have wrong : failure = .invalidCredentials := by
      simpa [failure?] using checked
    obtain ⟨kept, waits⟩ := isLocked.recordFailure window timed ctx le
    rw [wrong]
    simp [LoginRoute.finishLogin, kept, waits]

variable {ctx : AuditContext}

theorem tracker_finishLogin {pre : AccountAssessment} {result result' : Except Failure AuthTokens}
    (same : failure? result = failure? result') :
    (finishLogin host config t email ctx pre result now again).2 =
      (finishLogin host config t email ctx pre result' now again).2 := by
  cases result with
  | ok tokens =>
    cases result' with
    | ok tokens' =>
      simp only [finishLogin]
      split <;> rfl
    | error failure => cases same
  | error failure =>
    cases result' with
    | ok tokens' => cases same
    | error failure' =>
      cases same
      rfl

/-! ### One step of both runs -/

/-- The password of an attempt has been checked for `email`, by a server that
can sign tokens, and the attempt began during a lock. -/
structure Checked (host : Host) (config : Config) (body : Json) (email : String)
    (pre : AccountAssessment) (result : Except Failure AuthTokens) : Prop where
  admitted : ∃ password, loginSchema host.toPlatform body = some (email, password)
  padded : pre.preDelayMs = config.maxDelayMs
  outcome : failure? result = none ∨ failure? result = some .invalidCredentials

/-- The same attempt in the two runs. -/
inductive SameAttempt (host : Host) (config : Config) : Attempt → Attempt → Prop where
  | waiting {body : Json} {email : String} {ctx : AuditContext} {pre : AccountAssessment}
      {result result' : Except Failure AuthTokens} (same : failure? result = failure? result') :
      SameAttempt host config ⟨body, .waiting email ctx pre result⟩ ⟨body, .waiting email ctx pre result'⟩
  | varied {body body' : Json} {email : String} {ctx : AuditContext} {pre : AccountAssessment}
      {result result' : Except Failure AuthTokens} (different : body ≠ body')
      (checked : Checked host config body email pre result)
      (checked' : Checked host config body' email pre result') :
      SameAttempt host config ⟨body, .waiting email ctx pre result⟩ ⟨body', .waiting email ctx pre result'⟩
  | answered {body : Json} {reply reply' : Reply} :
      SameAttempt host config ⟨body, .answered reply⟩ ⟨body, .answered reply'⟩
  | turnedAway {body body' : Json} :
      SameAttempt host config ⟨body, .answered ⟨rejected, config.maxDelayMs⟩⟩
        ⟨body', .answered ⟨rejected, config.maxDelayMs⟩⟩

structure Related (host : Host) (config : Config) (s : State × State) : Prop where
  clock : s.1.clock = s.2.clock
  tracker : s.1.tracker = s.2.tracker
  timed : Timed config s.1.tracker
  accounts : SameAccounts s.1.sessions s.2.sessions
  attempts : List.Forall₂ (SameAttempt host config) s.1.attempts s.2.attempts

theorem beginLogin_of_schema {s : State} {body : Json} {password : String}
    (admitted : loginSchema host.toPlatform body = some (email, password)) :
    beginLogin host config secret s body ctx now again =
      (.waiting email ctx (assess host.runtime config s.tracker email now)
          (loginCall host.toPlatform s.sessions email password secret again).1,
        (loginCall host.toPlatform s.sessions email password secret again).2) := by
  simp [beginLogin, admitted]

variable (host config secret) in
theorem beginLogin_withoutSession (s : State) (body : Json) (ctx : AuditContext) (now again : Nat) :
    (beginLogin host config secret s body ctx now again).2.users.map withoutSession =
      s.sessions.users.map withoutSession := by
  cases admitted : loginSchema host.toPlatform body with
  | none => simp [beginLogin, admitted]
  | some credentials =>
    rw [beginLogin_of_schema admitted]
    exact loginCall_withoutSession _ _ _ _ _ _

variable {id : String}

theorem sameAttempt_beginLogin {s s' : State} (tracker : s.tracker = s'.tracker)
    (accounts : SameAccounts s.sessions s'.sessions) {body body' : Json} (ctx : AuditContext)
    (differ : body ≠ body' → ∃ email, DifferentPasswords host id email body body' ∧
      IsLocked host config s.tracker email now) :
    SameAttempt host config ⟨body, (beginLogin host config true s body ctx now again).1⟩
      ⟨body', (beginLogin host config true s' body' ctx now again).1⟩ := by
  by_cases same : body = body'
  · subst same
    cases admitted : loginSchema host.toPlatform body with
    | none =>
      simp only [beginLogin, admitted]
      exact .answered
    | some credentials =>
      obtain ⟨email, password⟩ := credentials
      rw [beginLogin_of_schema admitted, beginLogin_of_schema admitted, ← tracker]
      exact .waiting (failure?_loginCall accounts email password true _)
  · obtain ⟨email, ⟨-, password, password', admitted, admitted'⟩, isLocked⟩ := differ same
    rw [beginLogin_of_schema admitted, beginLogin_of_schema admitted', ← tracker]
    exact .varied same
      ⟨⟨password, admitted⟩, isLocked.preDelayMs, failure?_loginCall_cases _ _ _ _ _⟩
      ⟨⟨password', admitted'⟩, isLocked.preDelayMs, failure?_loginCall_cases _ _ _ _ _⟩

variable {s : State × State}

theorem Related.start (related : Related host config s) {body body' : Json} {ctx' : AuditContext}
    {wait wait' lag lag' : Nat}
    (alike : Alike host config id s (.start body ctx wait lag, .start body' ctx' wait' lag')) :
    Related host config
      (lockstep (step host config true) s (.start body ctx wait lag, .start body' ctx' wait' lag')) := by
  obtain ⟨rfl, rfl, rfl, differ⟩ := alike
  obtain ⟨clock, tracker, timed, accounts, attempts⟩ := related
  have kept := beginLogin_withoutSession host config true s.1 body ctx (s.1.clock + wait)
    (s.1.clock + wait + lag)
  have kept' := beginLogin_withoutSession host config true s.2 body' ctx (s.1.clock + wait)
    (s.1.clock + wait + lag)
  simp only [lockstep, step, ← clock]
  exact ⟨rfl, tracker, timed, (kept.trans accounts).trans kept'.symm,
    List.rel_append attempts (.cons (sameAttempt_beginLogin tracker accounts ctx differ) .nil)⟩

variable (window : config.lockoutDurationMs ≤ config.decayWindowMs)
    (related : Related host config s)

include window related

theorem Related.finish {i i' wait wait' lag lag' : Nat}
    (alike : Alike host config id s (.finish i wait lag, .finish i' wait' lag')) :
    Related host config
      (lockstep (step host config true) s (.finish i wait lag, .finish i' wait' lag')) := by
  obtain ⟨rfl, rfl, rfl, differ⟩ := alike
  obtain ⟨clock, tracker, timed, accounts, attempts⟩ := related
  have le := Nat.le_add_right (s.1.clock + wait) lag
  rcases forall₂_getElem? attempts i with ⟨here, there⟩ | ⟨attempt, attempt', here, there, same⟩
  · simp only [lockstep, step, here, there, clock]
    exact ⟨rfl, tracker, timed, accounts, attempts⟩
  · cases same with
    | waiting same =>
      rename_i body email ctx pre result result'
      simp only [lockstep, step, here, there, ← clock, ← tracker]
      exact ⟨rfl, tracker_finishLogin same, timed.finishLogin email ctx pre result le, accounts,
        forall₂_set attempts i .answered⟩
    | varied different checked checked' =>
      rename_i body body' email ctx pre result result'
      obtain ⟨email', ⟨-, password, -, admitted, -⟩, isLocked⟩ := differ _ _ here there different
      obtain ⟨password', admitted'⟩ := checked.admitted
      have sameEmail : email' = email :=
        congrArg Prod.fst (Option.some.inj (admitted.symm.trans admitted'))
      subst sameEmail
      have finished := isLocked.finishLogin window timed ctx le checked.padded checked.outcome
      have finished' := isLocked.finishLogin window timed ctx le checked'.padded
        checked'.outcome
      simp only [lockstep, step, here, there, ← clock, ← tracker, finished, finished']
      exact ⟨rfl, rfl, timed, accounts, forall₂_set attempts i .turnedAway⟩
    | answered | turnedAway =>
      simp only [lockstep, step, here, there, clock]
      exact ⟨rfl, tracker, timed, accounts, attempts⟩

theorem Related.step {e : Event × Event} (alike : Alike host config id s e) :
    Related host config (lockstep (LoginRoute.step host config true) s e) := by
  obtain ⟨e, e'⟩ := e
  cases e with
  | start body ctx wait lag =>
    cases e' with
    | start body' ctx' wait' lag' => exact related.start alike
    | finish i wait lag | sweep wait => cases alike
  | finish i wait lag =>
    cases e' with
    | start body ctx wait lag => cases alike
    | finish i' wait' lag' => exact related.finish window alike
    | sweep wait => cases alike
  | sweep wait =>
    cases e' with
    | start body ctx wait lag | finish i wait lag => cases alike
    | sweep wait' =>
      cases alike
      obtain ⟨clock, tracker, timed, accounts, attempts⟩ := related
      simp only [lockstep, LoginRoute.step, clock, tracker]
      exact ⟨rfl, rfl, tracker ▸ timed.sweep _, accounts, attempts⟩

omit window related

theorem Related.revealsNothing {s s' : State} (related : Related host config (s, s')) :
    RevealsNothing config s s' where
  tracker := related.tracker
  replies := by
    intro i attempt attempt' here there different
    rcases forall₂_getElem? related.attempts i with ⟨missing, -⟩ | ⟨a, a', found, found', same⟩
    · rw [here] at missing
      cases missing
    · simp only [State.reply?, found, found']
      cases here.symm.trans found
      cases there.symm.trans found'
      cases same with
      | waiting same => exact absurd rfl different
      | varied different checked checked' => exact ⟨rfl, fun reply mem => by cases mem⟩
      | answered => exact absurd rfl different
      | turnedAway => exact ⟨rfl, fun reply mem => by cases mem; rfl⟩

/-- Two runs of login requests that differ only in passwords for one identity,
in attempts that start and finish while it is locked and whose passwords pass
the schema, leave equal trackers and answer these attempts alike. -/
theorem locked_login_reveals_nothing (host : Host) (config : Config)
    (window : config.lockoutDurationMs ≤ config.decayWindowMs) (users : List UserAuthRow) (ms : Nat)
    (id : String) (events : List (Event × Event))
    (alike : Along (lockstep (step host config true)) (Alike host config id)
      (start users ms, start users ms) events) :
    RevealsNothing config (run (step host config true) (start users ms) (events.map Prod.fst))
      (run (step host config true) (start users ms) (events.map Prod.snd)) := by
  have initial : Related host config (start users ms, start users ms) :=
    ⟨rfl, rfl, timed_start, rfl, .nil⟩
  have related := alike.invariant (fun _ _ inv met => inv.step window met) initial
  rw [run_lockstep] at related
  exact related.revealsNothing

/-! ### A small host -/

def sampleHost : Host :=
  { strokePlatform with
    scrypt := fun password _ => if password = "password" then [1] else [2]
    number := fun _ => none
    isoTime := fun _ => "2024-01-01T00:00:00.000Z"
    lowerCase_eq_empty := fun empty => empty }

def strictConfig : Config := { Lockout.defaultConfig with maxFailures := 1 }

def credentials (password : String) : Json := .obj [("email", .str "a"), ("password", .str password)]

/-- A wrong password locks the account, and another attempt follows. -/
def attack (password : String) : List Event :=
  [.start (credentials "wrongword") {} 0 0, .finish 0 0 0, .start (credentials password) {} 1 0,
    .finish 1 0 0]

/-- The states of a run against one account. -/
def sampleRun (secret : Bool) (events : List Event) : State :=
  run (step sampleHost strictConfig secret) (start [sampleUser "u1" "a"] 1) events

theorem attack_alike :
    Along (lockstep (step sampleHost strictConfig true)) (Alike sampleHost strictConfig "a")
      (start [sampleUser "u1" "a"] 1, start [sampleUser "u1" "a"] 1)
      ((attack "password").zip (attack "password2")) := by
  have different : DifferentPasswords sampleHost "a" "a" (credentials "password")
      (credentials "password2") :=
    ⟨rfl, "password", "password2", by decide +kernel, by decide +kernel⟩
  refine ⟨⟨rfl, rfl, rfl, fun differ => absurd rfl differ⟩, ⟨rfl, rfl, rfl, ?_⟩,
    ⟨rfl, rfl, rfl, fun _ => ⟨"a", different, by decide +kernel⟩⟩, ⟨rfl, rfl, rfl, ?_⟩, trivial⟩
  · intro attempt attempt' here there differ
    cases here.symm.trans there
    exact absurd rfl differ
  · intro attempt attempt' here there _
    have body : ((sampleRun true ((attack "password").take 3)).attempts[1]?).map (·.body) =
        some (credentials "password") := by decide +kernel
    have body' : ((sampleRun true ((attack "password2").take 3)).attempts[1]?).map (·.body) =
        some (credentials "password2") := by decide +kernel
    change (sampleRun true ((attack "password").take 3)).attempts[1]? = some attempt at here
    change (sampleRun true ((attack "password2").take 3)).attempts[1]? = some attempt' at there
    rw [here, Option.map_some, Option.some.injEq] at body
    rw [there, Option.map_some, Option.some.injEq] at body'
    rw [body, body']
    exact ⟨"a", different, by decide +kernel⟩

theorem locked_login_reveals_nothing_attack :
    RevealsNothing strictConfig (sampleRun true (attack "password"))
      (sampleRun true (attack "password2")) :=
  locked_login_reveals_nothing sampleHost strictConfig (by decide) [sampleUser "u1" "a"] 1 "a"
    ((attack "password").zip (attack "password2")) attack_alike

/-- During a lock, a password that is too short is answered 400 where another
one is answered 401. A server without a secret answers the right password 500. -/
theorem locked_login_reveals_length :
    (IsLocked sampleHost strictConfig (sampleRun true ((attack "password").take 2)).tracker "a" 3 ∧
      (sampleRun true (attack "password")).reply? 1 ≠ (sampleRun true (attack "short")).reply? 1) ∧
    (IsLocked sampleHost strictConfig (sampleRun false ((attack "password").take 2)).tracker "a" 3 ∧
      (sampleRun false (attack "password")).reply? 1 ≠
        (sampleRun false (attack "password2")).reply? 1) := by
  refine ⟨⟨?_, ?_⟩, ?_, ?_⟩ <;> decide +kernel

/-! ### A refused login -/

variable (host config secret) in
/-- A request to the route, and the sessions after it; `later` is the tracker when the handler
goes on. -/
def postLogin (s : State) (later : Tracker)
    (body : Json) (ctx : AuditContext) (now again next last : Nat) : Reply × Sessions :=
  match beginLogin host config secret s body ctx now again with
  | (.answered reply, sessions) => (reply, sessions)
  | (.waiting email ctx pre result, sessions) =>
    ((finishLogin host config later email ctx pre result next last).1, sessions)

theorem setRefreshTokenHash_eq_self_iff {userId : String} {hash : Option String}
    {users : List UserAuthRow} : setRefreshTokenHash userId hash users = users ↔
      ∀ row ∈ users, row.id = userId → row.refreshTokenHash = hash := by
  have column : ∀ row : UserAuthRow, { row with refreshTokenHash := hash } = row ↔
      row.refreshTokenHash = hash := fun row =>
    ⟨fun eq => (congrArg UserAuthRow.refreshTokenHash eq).symm, fun eq => by rw [← eq]⟩
  induction users with
  | nil => simp [setRefreshTokenHash]
  | cons row users ih =>
    simp only [setRefreshTokenHash, List.map_cons, List.cons.injEq, List.forall_mem_cons] at ih ⊢
    refine and_congr ?_ ih
    split
    · rename_i same
      rw [column, forall_prop_of_true same]
    · rename_i other
      exact iff_of_true rfl fun same => absurd same other

/-- A request that is answered 401 leaves the sessions of all users iff it is not one with the
right password for an identity that is locked when the handler goes on: the service has stored the
digest of the new token by then. -/
theorem refused_login_keeps_sessions_iff (host : Host) (config : Config) (secret : Bool) (s : State)
    (later : Tracker) (body : Json) (ctx : AuditContext) (now again next last : Nat) :
    let out := postLogin host config secret s later body ctx now again next last
    (out.1.response.status = 401 → out.2.users = s.sessions.users) ↔
    ∀ email password row, loginSchema host.toPlatform body = some (email, password) →
      loginRow host.toPlatform s.sessions.users email password = some row → secret = true →
      IsLocked host config later email next →
      ∀ user ∈ s.sessions.users, user.id = row.id → user.refreshTokenHash =
        some (hashRefreshToken host.toPlatform (issueTokens host.toPlatform s.sessions row again).1.refreshToken) := by
  intro out
  simp only [out, postLogin, beginLogin]
  cases loginSchema host.toPlatform body with
  | none => simp
  | some credentials =>
    obtain ⟨email, password⟩ := credentials
    simp only [loginCall_eq, Option.some.injEq, Prod.mk.injEq, and_imp]
    cases accepted : loginRow host.toPlatform s.sessions.users email password with
    | none =>
      refine iff_of_true (fun _ => rfl) ?_
      rintro _ _ row rfl rfl found
      rw [accepted] at found
      cases found
    | some row =>
      cases secret with
      | false => exact iff_of_true (fun _ => rfl) fun _ _ _ _ _ _ no => by cases no
      | true =>
        have written : (issueTokens host.toPlatform s.sessions row again).2.users = s.sessions.users ↔ _ :=
          setRefreshTokenHash_eq_self_iff
        by_cases locked : (Lockout.assess host.runtime config later email next).isLocked = true
        · simp only [if_true, finishLogin, locked, rejected, authError, forall_const, written]
          constructor
          · rintro kept _ _ _ rfl rfl found -
            cases accepted.symm.trans found
            exact kept
          · exact fun kept => kept email password row rfl rfl accepted locked
        · simp only [if_true, finishLogin, locked, Bool.false_eq_true, if_false, tokensResponse]
          refine iff_of_true (by simp) ?_
          rintro _ _ _ rfl rfl - - isLocked
          exact absurd isLocked locked

/-- The right password during a lock is answered 401, and ends the session of the user. -/
theorem refused_login_ends_session :
    let s := sampleRun true ((attack "password").take 2)
    let out := postLogin sampleHost strictConfig true s s.tracker (credentials "password") {} 3 3 3 3
    out.1.response.status = 401 ∧
      out.2.users.map (·.refreshTokenHash) ≠ s.sessions.users.map (·.refreshTokenHash) := by
  decide +kernel

end TalentTrust.Auth.LoginRoute
