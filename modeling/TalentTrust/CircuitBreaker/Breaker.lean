import TalentTrust.Lib.Run
import Mathlib.Tactic.Linarith

/-!
`circuit-breaker/CircuitBreaker.ts`: the breaker, and the calls that it guards.

`execute` gives way once, while the guarded operation runs: `start` is the call
up to that point and `finish` what it does when the operation settles. A run is
a list of calls started and settled, of reads of the state and of advances of
the clock, in any order. An operation that throws at once is started and settled
by two events in a row.

Next to the breaker the machine keeps what its operations have done so far. The
breaker reads none of it. `step_invariant` reduces a step to four changes: the
clock advances, the breaker becomes `HALF_OPEN`, an operation is launched, an
operation settles.
-/

namespace TalentTrust.CircuitBreaker

open TalentTrust.Lib

/-! ### The breaker -/

inductive CircuitState where
  | closed
  | opened
  | halfOpen
  deriving DecidableEq, Repr

/-- `CircuitBreakerOptions`. Numbers of the options are rational: they need not be whole. -/
structure CircuitBreakerOptions where
  failureThreshold : Option ℚ := none
  successThreshold : Option ℚ := none
  timeout : Option ℚ := none
  name : Option String := none

/-- The fields that the constructor fills in. -/
structure Config where
  name : String
  failureThreshold : ℚ
  successThreshold : ℚ
  timeout : ℚ

def CircuitBreakerOptions.config (options : CircuitBreakerOptions) : Config where
  name := options.name.getD "default"
  failureThreshold := options.failureThreshold.getD 5
  successThreshold := options.successThreshold.getD 1
  timeout := options.timeout.getD 30000

def defaultConfig : Config := CircuitBreakerOptions.config {}

structure CircuitOpenError where
  circuitName : String
  message : String
  deriving DecidableEq

def circuitOpenError (circuitName : String) : CircuitOpenError where
  circuitName := circuitName
  message := "Circuit \"" ++ circuitName ++ "\" is OPEN — call rejected to protect upstream."

structure Breaker where
  state : CircuitState
  failureCount : Nat
  successCount : Nat
  lastFailureTime : Option Int
  probeInFlight : Bool
  deriving DecidableEq

namespace Breaker

def initial : Breaker := ⟨.closed, 0, 0, none, false⟩

def reset (_ : Breaker) : Breaker := initial

def toClosed (b : Breaker) : Breaker :=
  { b with state := .closed, failureCount := 0, successCount := 0 }

def toOpen (b : Breaker) : Breaker := { b with state := .opened }

def toHalfOpen (b : Breaker) : Breaker :=
  { b with state := .halfOpen, successCount := 0, probeInFlight := false }

/-- The timeout has passed since the last failure. -/
def Elapsed (config : Config) (now : Int) (b : Breaker) : Prop :=
  ∃ last ∈ b.lastFailureTime, config.timeout ≤ ((now - last : Int) : ℚ)

instance (config : Config) (now : Int) (b : Breaker) : Decidable (b.Elapsed config now) :=
  match known : b.lastFailureTime with
  | none => isFalse (by rintro ⟨last, mem, _⟩; rw [known] at mem; cases mem)
  | some last => decidable_of_iff (config.timeout ≤ ((now - last : Int) : ℚ))
      ⟨fun elapsed => ⟨last, known, elapsed⟩,
        fun ⟨_, mem, elapsed⟩ => Option.some.inj (known.symm.trans mem) ▸ elapsed⟩

/-- The test of `transitionIfNeeded`. -/
def Due (config : Config) (now : Int) (b : Breaker) : Prop :=
  b.state = .opened ∧ b.Elapsed config now

instance (config : Config) (now : Int) (b : Breaker) : Decidable (b.Due config now) :=
  inferInstanceAs (Decidable (_ ∧ _))

variable (config : Config)

def transitionIfNeeded (now : Int) (b : Breaker) : Breaker :=
  if b.Due config now then b.toHalfOpen else b

def onSuccess (b : Breaker) : Breaker :=
  let b := { b with failureCount := 0 }
  if b.state = .halfOpen then
    let b := { b with successCount := b.successCount + 1 }
    if config.successThreshold ≤ b.successCount then b.toClosed else b
  else b

variable (now : Int)

def onFailure (b : Breaker) : Breaker :=
  let b := { b with lastFailureTime := some now, successCount := 0 }
  if b.state = .halfOpen then b.toOpen
  else
    let b := { b with failureCount := b.failureCount + 1 }
    if config.failureThreshold ≤ b.failureCount then b.toOpen else b

/-- `execute` up to the call of the operation. -/
def start (b : Breaker) : Except CircuitOpenError Unit × Breaker :=
  let b := b.transitionIfNeeded config now
  match b.state with
  | .opened => (.error (circuitOpenError config.name), b)
  | .halfOpen =>
    if b.probeInFlight then (.error (circuitOpenError config.name), b)
    else (.ok (), { b with probeInFlight := true })
  | .closed => (.ok (), b)

/-- `execute` from the point where the operation has settled. -/
def finish (ok : Bool) (b : Breaker) : Breaker :=
  { (if ok then b.onSuccess config else b.onFailure config now) with probeInFlight := false }

def getState (b : Breaker) : CircuitState × Breaker :=
  let b := b.transitionIfNeeded config now
  (b.state, b)

structure CircuitStats where
  state : CircuitState
  failureCount : Nat
  successCount : Nat
  lastFailureTime : Option Int
  deriving DecidableEq

def getStats (b : Breaker) : CircuitStats × Breaker :=
  let b := b.transitionIfNeeded config now
  (⟨b.state, b.failureCount, b.successCount, b.lastFailureTime⟩, b)

end Breaker

/-! ### The machine -/

/-- An operation that runs: the state it was started in, how often the breaker had become
`HALF_OPEN` by then, and whether another operation has settled since. -/
structure Call where
  startedIn : CircuitState
  period : Nat
  overtaken : Bool
  deriving DecidableEq

/-- What has happened: the breaker became `HALF_OPEN`, an operation was started, or one
settled. -/
inductive Mark where
  | entered
  | started
  | settled (call : Call) (ok : Bool)
  deriving DecidableEq

structure State where
  now : Int
  breaker : Breaker
  running : List Call
  /-- The marks so far, the newest first. -/
  history : List Mark
  deriving DecidableEq

/-- A new breaker at a time of the clock. -/
def State.initial (now : Int) : State := ⟨now, .initial, [], []⟩

inductive Event where
  | execute
  /-- The operation at `index` of those that run resolves (`ok`) or rejects. -/
  | settle (index : Nat) (ok : Bool)
  | getState
  | getStats
  | tick (ms : Nat)
  | reset
  deriving DecidableEq

/-- How often the breaker has become `HALF_OPEN`. -/
def periods (history : List Mark) : Nat := history.count .entered

/-- The history after `transitionIfNeeded`. -/
def noteEntry (config : Config) (s : State) : List Mark :=
  if s.breaker.Due config s.now then .entered :: s.history else s.history

def Call.overtake (call : Call) : Call := { call with overtaken := true }

def step (config : Config) (s : State) : Event → State
  | .execute =>
    match s.breaker.start config s.now with
    | (.error _, b) => { s with breaker := b, history := noteEntry config s }
    | (.ok _, b) =>
      { s with
        breaker := b
        running := s.running ++ [⟨b.state, periods (noteEntry config s), false⟩]
        history := .started :: noteEntry config s }
  | .settle i ok =>
    match s.running[i]? with
    | none => s
    | some call =>
      { s with
        breaker := s.breaker.finish config s.now ok
        running := (s.running.eraseIdx i).map Call.overtake
        history := .settled call ok :: s.history }
  | .getState =>
    { s with breaker := (s.breaker.getState config s.now).2, history := noteEntry config s }
  | .getStats =>
    { s with breaker := (s.breaker.getStats config s.now).2, history := noteEntry config s }
  | .tick ms => { s with now := s.now + ms }
  | .reset => { s with breaker := s.breaker.reset }

variable {config : Config}

/-! ### The four changes of a step -/

def enter (s : State) : State :=
  { s with breaker := s.breaker.toHalfOpen, history := .entered :: s.history }

/-- The state after `transitionIfNeeded`. -/
def refresh (config : Config) (s : State) : State :=
  if s.breaker.Due config s.now then enter s else s

def Breaker.Accepts (b : Breaker) : Prop :=
  b.state = .closed ∨ b.state = .halfOpen ∧ b.probeInFlight = false

def launch (s : State) : State :=
  { s with
    breaker := { s.breaker with
      probeInFlight := s.breaker.probeInFlight || decide (s.breaker.state = .halfOpen) }
    running := s.running ++ [⟨s.breaker.state, periods s.history, false⟩]
    history := .started :: s.history }

def conclude (config : Config) (s : State) (i : Nat) (call : Call) (ok : Bool) : State :=
  { s with
    breaker := s.breaker.finish config s.now ok
    running := (s.running.eraseIdx i).map Call.overtake
    history := .settled call ok :: s.history }

variable {s : State}

theorem refresh_of_due (due : s.breaker.Due config s.now) : refresh config s = enter s :=
  if_pos due

theorem refresh_of_not_due (early : ¬ s.breaker.Due config s.now) : refresh config s = s :=
  if_neg early

theorem refresh_eq (s : State) :
    refresh config s =
      { s with
        breaker := s.breaker.transitionIfNeeded config s.now
        history := noteEntry config s } := by
  by_cases due : s.breaker.Due config s.now
  · simp [refresh, noteEntry, Breaker.transitionIfNeeded, if_pos due, enter]
  · simp [refresh, noteEntry, Breaker.transitionIfNeeded, if_neg due]

theorem step_getState (s : State) : step config s .getState = refresh config s :=
  (refresh_eq s).symm

theorem step_getStats (s : State) : step config s .getStats = refresh config s :=
  (refresh_eq s).symm

theorem step_execute (config : Config) (s : State) :
    (refresh config s).breaker.Accepts ∧ step config s .execute = launch (refresh config s) ∨
      ¬ (refresh config s).breaker.Accepts ∧ step config s .execute = refresh config s := by
  rw [refresh_eq]
  simp only [step, Breaker.start, Breaker.Accepts, launch]
  obtain ⟨state, failures, successes, last, flag⟩ := s.breaker.transitionIfNeeded config s.now
  cases state with
  | closed => left; simp
  | opened => right; simp
  | halfOpen =>
    cases flag with
    | false => left; simp
    | true => right; simp

theorem step_settle {i : Nat} {call : Call} (found : s.running[i]? = some call) (ok : Bool) :
    step config s (.settle i ok) = conclude config s i call ok := by
  simp [step, found, conclude]

theorem step_settle_of_none {i : Nat} (missing : s.running[i]? = none) (ok : Bool) :
    step config s (.settle i ok) = s := by
  simp [step, missing]

variable {Inv : State → Prop}

theorem refresh_keeps (inv : Inv s) (enters : s.breaker.Due config s.now → Inv (enter s)) :
    Inv (refresh config s) := by
  by_cases due : s.breaker.Due config s.now
  · rw [refresh_of_due due]
    exact enters due
  · rwa [refresh_of_not_due due]

/-- What the four changes keep, every step but `reset` keeps. -/
theorem step_invariant (ticks : ∀ s (ms : Nat), Inv s → Inv { s with now := s.now + ms })
    (enters : ∀ s, Inv s → s.breaker.Due config s.now → Inv (enter s))
    (launches : ∀ s, Inv s → s.breaker.Accepts → Inv (launch s))
    (settles : ∀ s i call ok, Inv s → s.running[i]? = some call → Inv (conclude config s i call ok))
    (s : State) (e : Event) (inv : Inv s) (noReset : e ≠ .reset) : Inv (step config s e) := by
  have refreshed : Inv (refresh config s) := refresh_keeps inv (enters s inv)
  cases e with
  | execute =>
    rcases step_execute config s with ⟨accepts, next⟩ | ⟨_, next⟩
    · rw [next]
      exact launches _ refreshed accepts
    · rwa [next]
  | settle i ok =>
    cases found : s.running[i]? with
    | none => rwa [step_settle_of_none found]
    | some call =>
      rw [step_settle found]
      exact settles s i call ok inv found
  | getState => rwa [step_getState]
  | getStats => rwa [step_getStats]
  | tick ms => exact ticks s ms inv
  | reset => exact absurd rfl noReset

variable (history : List Mark)

@[simp] theorem periods_entered :
    periods (.entered :: history) = periods history + 1 := by simp [periods]

@[simp] theorem periods_started :
    periods (.started :: history) = periods history := by simp [periods]

@[simp] theorem periods_settled (call : Call) (ok : Bool) (history : List Mark) :
    periods (.settled call ok :: history) = periods history := by simp [periods]

end TalentTrust.CircuitBreaker
