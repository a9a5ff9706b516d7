import TalentTrust.CircuitBreaker.Breaker

/-!
What the counters of the breaker count.

In `HALF_OPEN`, `successCount` is the number of operations that have succeeded
since the breaker got there, whenever they were started (`HalfOpenCount`). So the
breaker closes on the word of its probes alone iff no success of an older
operation is among those counted (`closes_on_probes_iff`).

`failureCount` never exceeds the failures since the last success, and a breaker
that is `OPEN` knows when it last failed; until the timeout has passed since then
it starts nothing (`fails_fast`), and then its next call is a probe
(`probes_after_timeout`).
-/

namespace TalentTrust.CircuitBreaker

open TalentTrust.Lib

variable {config : Config}

/-! ### What settling does to the breaker -/

variable {b : Breaker}

theorem finish_success_halfOpen (config : Config) (half : b.state = .halfOpen) (now : Int) :
    (b.finish config now true).state =
        (if config.successThreshold ≤ ((b.successCount + 1 : Nat) : ℚ) then .closed else .halfOpen) ∧
      (¬ config.successThreshold ≤ ((b.successCount + 1 : Nat) : ℚ) →
        (b.finish config now true).successCount = b.successCount + 1) := by
  simp only [Breaker.finish, Breaker.onSuccess, half, if_true]
  split <;> simp_all [Breaker.toClosed]

theorem finish_success_other (other : b.state ≠ .halfOpen) (now : Int) :
    (b.finish config now true).state = b.state := by
  simp [Breaker.finish, Breaker.onSuccess, other]

theorem finish_failure_halfOpen (half : b.state = .halfOpen) (now : Int) :
    (b.finish config now false).state = .opened := by
  simp [Breaker.finish, Breaker.onFailure, half, Breaker.toOpen]

theorem finish_failure_other (other : b.state ≠ .halfOpen) (now : Int) :
    (b.finish config now false).state =
      if config.failureThreshold ≤ ((b.failureCount + 1 : Nat) : ℚ) then .opened else b.state := by
  simp only [Breaker.finish, Breaker.onFailure, other, if_false, Bool.false_eq_true]
  split <;> rfl

variable (b : Breaker) (now : Int)

theorem finish_failure_lastFailureTime :
    (b.finish config now false).lastFailureTime = some now := by
  simp only [Breaker.finish, Breaker.onFailure, Bool.false_eq_true, if_false]
  split
  · rfl
  · split <;> rfl

theorem finish_success_lastFailureTime :
    (b.finish config now true).lastFailureTime = b.lastFailureTime := by
  simp only [Breaker.finish, Breaker.onSuccess, if_true]
  split
  · split <;> rfl
  · rfl

theorem finish_success_failureCount : (b.finish config now true).failureCount = 0 := by
  simp only [Breaker.finish, Breaker.onSuccess, if_true]
  split
  · split <;> rfl
  · rfl

theorem finish_failure_failureCount :
    (b.finish config now false).failureCount ≤ b.failureCount + 1 := by
  simp only [Breaker.finish, Breaker.onFailure, Bool.false_eq_true, if_false]
  split
  · exact Nat.le_succ _
  · split <;> exact Nat.le_refl _

/-! ### Successes in `HALF_OPEN` -/

/-- The operation was started in the `HALF_OPEN` period of this number. -/
def Call.ofPeriod (call : Call) (n : Nat) : Bool :=
  decide (call.startedIn = .halfOpen) && decide (call.period = n)

namespace Mark

def success : Mark → Bool
  | .settled _ ok => ok
  | _ => false

def failure : Mark → Bool
  | .settled _ ok => !ok
  | _ => false

/-- A success of an operation started in the period, or of another one. -/
def probeSuccess (n : Nat) : Mark → Bool
  | .settled call ok => ok && call.ofPeriod n
  | _ => false

def staleSuccess (n : Nat) : Mark → Bool
  | .settled call ok => ok && !call.ofPeriod n
  | _ => false

/-- A failure of an operation started in the period. -/
def probeFailure (n : Nat) : Mark → Bool
  | .settled call ok => !ok && call.ofPeriod n
  | _ => false

end Mark

/-- The marks since the breaker last became `HALF_OPEN`. -/
def sinceEntry (history : List Mark) : List Mark := history.takeWhile fun mark => mark ≠ .entered

variable (history : List Mark)

@[simp] theorem sinceEntry_entered : sinceEntry (.entered :: history) = [] := rfl

@[simp] theorem sinceEntry_started :
    sinceEntry (.started :: history) = .started :: sinceEntry history := rfl

@[simp] theorem sinceEntry_settled (call : Call) (ok : Bool) :
    sinceEntry (.settled call ok :: history) = .settled call ok :: sinceEntry history := rfl

theorem countP_success (n : Nat) (marks : List Mark) :
    marks.countP Mark.success =
      marks.countP (Mark.probeSuccess n) + marks.countP (Mark.staleSuccess n) := by
  induction marks with
  | nil => rfl
  | cons mark marks ih =>
    simp only [List.countP_cons, ih]
    cases mark with
    | entered | started => simp [Mark.success, Mark.probeSuccess, Mark.staleSuccess]
    | settled call ok =>
      cases ok <;> cases own : call.ofPeriod n <;>
        simp [Mark.success, Mark.probeSuccess, Mark.staleSuccess, own] <;> omega

/-- What `successCount` counts in `HALF_OPEN`. -/
structure HalfOpenCount (config : Config) (s : State) : Prop where
  counted : s.breaker.successCount = (sinceEntry s.history).countP Mark.success
  clean : ∀ mark ∈ sinceEntry s.history, mark.failure = false
  below : s.breaker.successCount = 0 ∨ (s.breaker.successCount : ℚ) < config.successThreshold

def Counting (config : Config) (s : State) : Prop :=
  s.breaker.state = .halfOpen → HalfOpenCount config s

theorem Counting.enter (s : State) : Counting config (enter s) := by
  intro _
  refine ⟨rfl, ?_, .inl rfl⟩
  intro mark mem
  cases mem

variable {s : State}

theorem Counting.launch (counting : Counting config s) : Counting config (launch s) := by
  intro half
  obtain ⟨counted, clean, below⟩ := counting half
  refine ⟨?_, ?_, below⟩
  · simpa [CircuitBreaker.launch, Mark.success] using counted
  · simpa [CircuitBreaker.launch, Mark.failure] using clean

theorem Counting.conclude (counting : Counting config s) (i : Nat) (call : Call) (ok : Bool) :
    Counting config (conclude config s i call ok) := by
  intro half'
  have still : (s.breaker.finish config s.now ok).state = .halfOpen := half'
  by_cases half : s.breaker.state = .halfOpen
  · cases ok with
    | false =>
      rw [finish_failure_halfOpen half] at still
      cases still
    | true =>
      obtain ⟨state, count⟩ := finish_success_halfOpen config half s.now
      rw [state] at still
      split at still
      · cases still
      · rename_i short
        obtain ⟨counted, clean, _⟩ := counting half
        refine ⟨?_, ?_, .inr ?_⟩
        · simp [CircuitBreaker.conclude, count short, counted, List.countP_cons, Mark.success]
        · simpa [CircuitBreaker.conclude, Mark.failure] using clean
        · simpa [CircuitBreaker.conclude, count short] using short
  · cases ok with
    | false =>
      rw [finish_failure_other half] at still
      split at still
      · cases still
      · exact absurd still half
    | true =>
      rw [finish_success_other half] at still
      exact absurd still half

theorem counting_step (s : State) (e : Event) (counting : Counting config s) (noReset : e ≠ .reset) :
    Counting config (step config s e) :=
  step_invariant (fun _ _ counting half => ⟨(counting half).1, (counting half).2, (counting half).3⟩)
    (fun s _ _ => Counting.enter s) (fun _ counting _ => counting.launch)
    (fun _ i call ok counting _ => counting.conclude i call ok) s e counting noReset

/-! ### Closing -/

/-- Enough successes of operations started in this period since the breaker became
`HALF_OPEN`, and no failure of one. -/
def ProbeEvidence (config : Config) (s : State) : Prop :=
  config.successThreshold ≤
      (((sinceEntry s.history).countP (Mark.probeSuccess (periods s.history)) : Nat) : ℚ) ∧
    ∀ mark ∈ sinceEntry s.history, mark.probeFailure (periods s.history) = false

instance (config : Config) (s : State) : Decidable (ProbeEvidence config s) :=
  inferInstanceAs (Decidable (_ ∧ _))

/-- A step from `HALF_OPEN` to `CLOSED` has the word of the probes. -/
def ClosesOnProbes (config : Config) (s : State) (e : Event) : Prop :=
  s.breaker.state = .halfOpen → (step config s e).breaker.state = .closed →
    ProbeEvidence config (step config s e)

/-- When a success brings `successCount` to a threshold that is positive, neither this
success nor one counted before it in this period is of an operation started earlier. -/
def NoStaleSuccess (config : Config) (s : State) : Event → Prop
  | .settle i true => ∀ call ∈ s.running[i]?, s.breaker.state = .halfOpen →
      config.successThreshold ≤ ((s.breaker.successCount + 1 : Nat) : ℚ) →
        0 < config.successThreshold → call.ofPeriod (periods s.history) = true ∧
          ∀ mark ∈ sinceEntry s.history, mark.staleSuccess (periods s.history) = false
  | _ => True

instance (config : Config) (s : State) : (e : Event) → Decidable (NoStaleSuccess config s e)
  | .settle i true => inferInstanceAs (Decidable (∀ call ∈ s.running[i]?, _))
  | .settle _ false | .execute | .getState | .getStats | .tick _ | .reset => isTrue trivial

theorem refresh_of_halfOpen (half : s.breaker.state = .halfOpen) : refresh config s = s := by
  refine refresh_of_not_due ?_
  rintro ⟨opened, _⟩
  rw [half] at opened
  cases opened

variable {e : Event}

theorem closes_iff (half : s.breaker.state = .halfOpen) (noReset : e ≠ .reset) :
    (step config s e).breaker.state = .closed ↔
      ∃ i call, e = .settle i true ∧ s.running[i]? = some call ∧
        config.successThreshold ≤ ((s.breaker.successCount + 1 : Nat) : ℚ) := by
  cases e with
  | execute =>
    rcases step_execute config s with ⟨_, next⟩ | ⟨_, next⟩ <;>
      simp [next, refresh_of_halfOpen half, launch, half]
  | settle i ok =>
    cases found : s.running[i]? with
    | none => simp [step_settle_of_none found, half, found]
    | some call =>
      rw [step_settle found]
      cases ok with
      | false => simp [conclude, finish_failure_halfOpen half]
      | true =>
        simp only [conclude, (finish_success_halfOpen config half s.now).1]
        simp [found]
  | getState => simp [step_getState, refresh_of_halfOpen half, half]
  | getStats => simp [step_getStats, refresh_of_halfOpen half, half]
  | tick ms => simp [step, half]
  | reset => exact absurd rfl noReset

/-- What the success that reaches the threshold says about the probes: the breaker closes at
once when the count gets there, so one stale success leaves too few others. -/
theorem probeEvidence_iff (count : HalfOpenCount config s) (i : Nat) (call : Call)
    (reached : config.successThreshold ≤ ((s.breaker.successCount + 1 : Nat) : ℚ)) :
    ProbeEvidence config (conclude config s i call true) ↔
      (0 < config.successThreshold → call.ofPeriod (periods s.history) = true ∧
        ∀ mark ∈ sinceEntry s.history, mark.staleSuccess (periods s.history) = false) := by
  obtain ⟨counted, clean, below⟩ := count
  set n := periods s.history with hn
  set marks := Mark.settled call true :: sinceEntry s.history with hmarks
  have evidence : ProbeEvidence config (conclude config s i call true) ↔
      config.successThreshold ≤ ((marks.countP (Mark.probeSuccess n) : Nat) : ℚ) ∧
        ∀ mark ∈ marks, mark.probeFailure n = false := by
    simp [ProbeEvidence, conclude, ← hn, ← hmarks]
  have no_failure : ∀ mark ∈ marks, mark.probeFailure n = false := by
    intro mark mem
    rcases List.mem_cons.mp mem with rfl | mem
    · rfl
    · have fine := clean mark mem
      cases mark with
      | entered | started => rfl
      | settled other ok => simp_all [Mark.failure, Mark.probeFailure]
  have total : marks.countP (Mark.probeSuccess n) + marks.countP (Mark.staleSuccess n) =
      s.breaker.successCount + 1 := by
    rw [← countP_success, List.countP_cons, counted]
    rfl
  have none_stale : marks.countP (Mark.staleSuccess n) = 0 ↔ call.ofPeriod n = true ∧
      ∀ mark ∈ sinceEntry s.history, mark.staleSuccess n = false := by
    simp [hmarks, Mark.staleSuccess]
  rw [evidence, and_iff_left no_failure, ← none_stale]
  constructor
  · intro enough positive
    rcases below with zero | short
    · have some_probe : (0 : ℚ) < ((marks.countP (Mark.probeSuccess n) : Nat) : ℚ) :=
        lt_of_lt_of_le positive enough
      have := Nat.cast_pos.mp some_probe
      omega
    · have more : s.breaker.successCount < marks.countP (Mark.probeSuccess n) :=
        Nat.cast_lt.mp (lt_of_lt_of_le short enough)
      omega
  · intro no_stale
    rcases lt_or_ge 0 config.successThreshold with positive | free
    · have all : marks.countP (Mark.probeSuccess n) = s.breaker.successCount + 1 := by
        have := no_stale positive
        omega
      rwa [all]
    · exact free.trans (Nat.cast_nonneg _)

theorem noStaleSuccess_iff (counting : Counting config s) (noReset : e ≠ .reset) :
    NoStaleSuccess config s e ↔ ClosesOnProbes config s e := by
  constructor
  · intro cond half closes
    obtain ⟨i, call, rfl, found, reached⟩ := (closes_iff half noReset).mp closes
    rw [step_settle found]
    exact (probeEvidence_iff (counting half) i call reached).mpr (cond call found half reached)
  · intro asked
    match e with
    | .settle i true =>
      intro call found half reached
      have closes := (closes_iff half noReset).mpr ⟨i, call, rfl, found, reached⟩
      have evidence := asked half closes
      rw [step_settle found] at evidence
      exact (probeEvidence_iff (counting half) i call reached).mp evidence
    | .settle _ false | .execute | .getState | .getStats | .tick _ | .reset => trivial

/-- Every step of a run that closes a `HALF_OPEN` breaker has the word of its probes iff no
stale success is among those that reach the threshold. -/
theorem closes_on_probes_iff (config : Config) (now : Int) (events : List Event)
    (noReset : ∀ e ∈ events, e ≠ .reset) :
    Along (step config) (NoStaleSuccess config) (.initial now) events ↔
      ∀ fs e, fs ++ [e] <+: events →
        ClosesOnProbes config (run (step config) (.initial now) fs) e := by
  have start : Counting config (.initial now) := by
    intro half
    cases half
  exact (along_of_forall noReset).iff_each counting_step
    (fun _ _ counting noReset => noStaleSuccess_iff counting noReset) start

/-- Default options: the breaker opens while a sixth operation runs, becomes `HALF_OPEN`,
and closes when that operation succeeds. No probe was ever started. -/
theorem closed_without_probe :
    let before := run (step defaultConfig) (.initial 0)
      (List.replicate 6 .execute ++ List.replicate 5 (.settle 0 false) ++ [.tick 30000, .getState])
    before.breaker.state = .halfOpen ∧
      (step defaultConfig before (.settle 0 true)).breaker.state = .closed ∧
      ¬ ProbeEvidence defaultConfig (step defaultConfig before (.settle 0 true)) := by
  decide +kernel

/-- With a probe instead of the old operation. -/
theorem closes_on_probes_iff_of_probe :
    let events : List Event :=
      List.replicate 5 .execute ++ List.replicate 5 (.settle 0 false) ++
        [.tick 30000, .execute, .settle 0 true]
    (∀ e ∈ events, e ≠ .reset) ∧
      Along (step defaultConfig) (NoStaleSuccess defaultConfig) (.initial 0) events ∧
      ∀ fs e, fs ++ [e] <+: events →
        ClosesOnProbes defaultConfig (run (step defaultConfig) (.initial 0) fs) e := by
  intro events
  have noReset : ∀ e ∈ events, e ≠ .reset := by decide
  have met : Along (step defaultConfig) (NoStaleSuccess defaultConfig) (.initial 0) events := by
    decide +kernel
  exact ⟨noReset, met, (closes_on_probes_iff _ 0 events noReset).mp met⟩

/-! ### Failing fast -/

/-- The failures since the last success. The breaker closes on a success only, so a close
is no later than that. -/
def failuresSince : Nat :=
  (history.takeWhile fun mark => !mark.success).countP Mark.failure

@[simp] theorem failuresSince_entered :
    failuresSince (.entered :: history) = failuresSince history := by
  simp [failuresSince, Mark.success, Mark.failure]

@[simp] theorem failuresSince_started :
    failuresSince (.started :: history) = failuresSince history := by
  simp [failuresSince, Mark.success, Mark.failure]

@[simp] theorem failuresSince_failed (call : Call) (history : List Mark) :
    failuresSince (.settled call false :: history) = failuresSince history + 1 := by
  simp [failuresSince, Mark.success, Mark.failure]

def starts : Nat := history.count .started

/-- What the breaker knows of its failures. -/
structure Counted (s : State) : Prop where
  known : s.breaker.state = .opened → s.breaker.lastFailureTime.isSome
  bounded : s.breaker.failureCount ≤ failuresSince s.history

theorem Counted.conclude (counted : Counted s) (i : Nat) (call : Call) (ok : Bool) :
    Counted (conclude config s i call ok) := by
  cases ok with
  | true =>
    refine ⟨?_, ?_⟩
    · intro opened
      simp only [CircuitBreaker.conclude, finish_success_lastFailureTime]
      apply counted.known
      by_cases half : s.breaker.state = .halfOpen
      · simp only [CircuitBreaker.conclude, (finish_success_halfOpen config half s.now).1] at opened
        split at opened <;> cases opened
      · rwa [CircuitBreaker.conclude, finish_success_other half] at opened
    · simp only [CircuitBreaker.conclude, finish_success_failureCount]
      exact Nat.zero_le _
  | false =>
    refine ⟨?_, ?_⟩
    · intro _
      simp [CircuitBreaker.conclude, finish_failure_lastFailureTime]
    · simp only [CircuitBreaker.conclude, failuresSince_failed]
      exact (finish_failure_failureCount _ _).trans (Nat.succ_le_succ counted.bounded)

theorem counted_step (s : State) (e : Event) (counted : Counted s) (noReset : e ≠ .reset) :
    Counted (step config s e) := by
  refine step_invariant (fun _ _ counted => ⟨counted.known, counted.bounded⟩) ?_ ?_
    (fun _ i call ok counted _ => counted.conclude i call ok) s e counted noReset
  · intro s counted _
    refine ⟨nofun, ?_⟩
    simpa [enter, Breaker.toHalfOpen] using counted.bounded
  · intro s counted _
    refine ⟨counted.known, ?_⟩
    simpa [launch] using counted.bounded

theorem Counted.trip (counted : Counted s) (noReset : e ≠ .reset)
    (closed : s.breaker.state = .closed) (opens : (step config s e).breaker.state = .opened) :
    config.failureThreshold ≤ (failuresSince (step config s e).history : ℚ) := by
  have early : ¬ s.breaker.Due config s.now := by
    rintro ⟨opened, _⟩
    rw [closed] at opened
    cases opened
  cases e with
  | execute =>
    rcases step_execute config s with ⟨_, next⟩ | ⟨_, next⟩ <;>
      simp [next, refresh_of_not_due early, launch, closed] at opens
  | settle i ok =>
    cases found : s.running[i]? with
    | none => simp [step_settle_of_none found, closed] at opens
    | some call =>
      have other : s.breaker.state ≠ .halfOpen := by simp [closed]
      rw [step_settle found] at opens ⊢
      cases ok with
      | true => simp [CircuitBreaker.conclude, finish_success_other other, closed] at opens
      | false =>
        simp only [CircuitBreaker.conclude, finish_failure_other other] at opens
        split at opens
        · rename_i reached
          refine reached.trans (Nat.cast_le.mpr ?_)
          simpa [CircuitBreaker.conclude] using counted.bounded
        · rw [closed] at opens
          cases opens
  | getState => simp [step_getState, refresh_of_not_due early, closed] at opens
  | getStats => simp [step_getStats, refresh_of_not_due early, closed] at opens
  | tick ms => simp [step, closed] at opens
  | reset => exact absurd rfl noReset

/-- Before the timeout has passed, a step leaves an `OPEN` breaker open and starts nothing. -/
theorem step_of_opened (opened : s.breaker.state = .opened)
    (early : ¬ s.breaker.Elapsed config s.now) (noReset : e ≠ .reset) :
    (step config s e).breaker.state = .opened ∧ starts (step config s e).history = starts s.history := by
  have same : refresh config s = s := refresh_of_not_due fun due => early due.2
  cases e with
  | execute =>
    rcases step_execute config s with ⟨accepts, _⟩ | ⟨_, next⟩
    · rw [same] at accepts
      rcases accepts with closed | ⟨half, _⟩
      · rw [opened] at closed
        cases closed
      · rw [opened] at half
        cases half
    · rw [next, same]
      exact ⟨opened, rfl⟩
  | settle i ok =>
    cases found : s.running[i]? with
    | none =>
      rw [step_settle_of_none found]
      exact ⟨opened, rfl⟩
    | some call =>
      have other : s.breaker.state ≠ .halfOpen := by simp [opened]
      rw [step_settle found]
      refine ⟨?_, by simp [conclude, starts]⟩
      cases ok with
      | true => simp [conclude, finish_success_other other, opened]
      | false => simp [conclude, finish_failure_other other, opened]
  | getState =>
    rw [step_getState, same]
    exact ⟨opened, rfl⟩
  | getStats =>
    rw [step_getStats, same]
    exact ⟨opened, rfl⟩
  | tick ms => exact ⟨opened, rfl⟩
  | reset => exact absurd rfl noReset

theorem starts_run_of_opened {events : List Event} (opened : s.breaker.state = .opened)
    (noReset : ∀ e ∈ events, e ≠ .reset)
    (early : ∀ fs e, fs ++ [e] <+: events →
      ¬ (run (step config) s fs).breaker.Elapsed config (run (step config) s fs).now) :
    starts (run (step config) s events).history = starts s.history := by
  induction events generalizing s with
  | nil => rfl
  | cons e es ih =>
    obtain ⟨here, rest⟩ := List.forall_mem_cons.mp noReset
    have now : ¬ s.breaker.Elapsed config s.now :=
      early [] e (List.cons_prefix_cons.mpr ⟨rfl, List.nil_prefix⟩)
    obtain ⟨still, none_started⟩ := step_of_opened opened now here
    rw [run_cons, ih still rest, none_started]
    intro fs d initial
    exact early (e :: fs) d (List.cons_prefix_cons.mpr ⟨rfl, initial⟩)

/-- In every state of a run without `reset`: an `OPEN` breaker knows when it last failed; a
step that trips it has as many failures since the last success as the threshold asks for;
and from an `OPEN` breaker on, nothing is started until a moment at which the timeout has
passed since the failure recorded last. -/
theorem fails_fast (config : Config) (now : Int) (events : List Event)
    (noReset : ∀ e ∈ events, e ≠ .reset) (fs : List Event) (initial : fs <+: events) :
    let s := run (step config) (.initial now) fs
    (s.breaker.state = .opened → s.breaker.lastFailureTime.isSome) ∧
      (∀ e, fs ++ [e] <+: events → s.breaker.state = .closed →
        (step config s e).breaker.state = .opened →
          config.failureThreshold ≤ (failuresSince (step config s e).history : ℚ)) ∧
      ∀ gs, fs ++ gs <+: events → s.breaker.state = .opened →
        (∀ hs e, hs ++ [e] <+: gs →
          ¬ (run (step config) s hs).breaker.Elapsed config (run (step config) s hs).now) →
        starts (run (step config) s gs).history = starts s.history := by
  intro s
  have counted : Counted s := by
    have along : Along (step config) (fun _ e => e ≠ .reset) (.initial now) fs :=
      Along.of_prefix (along_of_forall noReset) initial
    refine along.invariant (fun s e inv noReset => counted_step s e inv noReset) ⟨?_, Nat.le_refl _⟩
    intro opened
    cases opened
  refine ⟨counted.known, ?_, ?_⟩
  · intro e next closed opens
    have mem : e ∈ events := next.subset (by simp)
    exact counted.trip (noReset e mem) closed opens
  · intro gs next opened early
    refine starts_run_of_opened opened (fun e mem => noReset e ?_) early
    exact next.subset (List.mem_append_right fs mem)

theorem fails_fast_after_trip :
    let events : List Event := List.replicate 5 .execute ++ List.replicate 5 (.settle 0 false)
    let s := run (step defaultConfig) (.initial 0) events
    (∀ e ∈ events ++ [.tick 29999, .execute], e ≠ .reset) ∧ s.breaker.state = .opened ∧
      starts (run (step defaultConfig) s [.tick 29999, .execute]).history = starts s.history := by
  intro events s
  have noReset : ∀ e ∈ events ++ [.tick 29999, .execute], e ≠ .reset := by decide
  have opened : s.breaker.state = .opened := by decide +kernel
  refine ⟨noReset, opened, ?_⟩
  have quiet := (fails_fast defaultConfig 0 _ noReset events (List.prefix_append _ _)).2.2
  refine quiet _ (List.prefix_refl _) opened ?_
  intro hs e initial
  have cases : hs = [] ∨ hs = [.tick 29999] := by
    match hs, initial with
    | [], _ => exact .inl rfl
    | [a], initial =>
      right
      rw [(List.cons_prefix_cons.mp initial).1]
    | _ :: _ :: _ , initial => simp at initial
  rcases cases with rfl | rfl <;> decide +kernel

/-! ### An `OPEN` breaker recovers -/

/-- No failure is recorded for a time to come. -/
def Past (s : State) : Prop := ∀ last ∈ s.breaker.lastFailureTime, last ≤ s.now

theorem past_step (s : State) (e : Event) (past : Past s) (noReset : e ≠ .reset) :
    Past (step config s e) := by
  refine step_invariant (fun s ms past last mem => ?_) (fun _ past _ => past) (fun _ past _ => past)
    (fun s i call ok past _ last mem => ?_) s e past noReset
  · exact (past last mem).trans (Int.le_add_of_nonneg_right ms.cast_nonneg)
  · cases ok with
    | true => exact past last ((finish_success_lastFailureTime s.breaker s.now).symm.trans mem)
    | false =>
      cases (finish_failure_lastFailureTime s.breaker s.now).symm.trans mem
      exact le_refl s.now

/-- Whatever calls have overlapped before, an `OPEN` breaker lets the next call through as a
probe once the timeout has passed. -/
theorem probes_after_timeout (config : Config) (now : Int) (events : List Event)
    (noReset : ∀ e ∈ events, e ≠ .reset) (ms : Nat) (passed : config.timeout ≤ ms) :
    let s := run (step config) (.initial now) events
    s.breaker.state = .opened → ∃ probe : Call, probe.startedIn = .halfOpen ∧
      (run (step config) s [.tick ms, .execute]).running = s.running ++ [probe] := by
  intro s opened
  have along : Along (step config) (fun _ e => e ≠ .reset) (.initial now) events :=
    along_of_forall noReset
  have counted : Counted s := along.invariant counted_step ⟨nofun, Nat.le_refl _⟩
  have past : Past s := along.invariant past_step nofun
  obtain ⟨last, known⟩ := Option.isSome_iff_exists.mp (counted.known opened)
  have due : (step config s (.tick ms)).breaker.Due config (step config s (.tick ms)).now := by
    have elapsed : (ms : Int) ≤ s.now + ms - last := by
      have := past last known
      omega
    exact ⟨opened, last, known, passed.trans (by exact_mod_cast elapsed)⟩
  rcases step_execute config (step config s (.tick ms)) with ⟨_, next⟩ | ⟨refuses, _⟩
  · rw [refresh_of_due due] at next
    exact ⟨_, rfl, congrArg State.running next⟩
  · rw [refresh_of_due due] at refuses
    exact absurd (.inr ⟨rfl, rfl⟩) refuses

theorem probes_after_trip :
    let s := run (step defaultConfig) (.initial 0)
      (List.replicate 5 .execute ++ List.replicate 5 (.settle 0 false))
    ∃ probe : Call, probe.startedIn = .halfOpen ∧
      (run (step defaultConfig) s [.tick 30000, .execute]).running = s.running ++ [probe] :=
  probes_after_timeout defaultConfig 0 _ (by decide) 30000 (le_refl _) (by decide +kernel)

end TalentTrust.CircuitBreaker
