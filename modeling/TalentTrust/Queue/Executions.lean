import TalentTrust.Queue.Shutdown
import TalentTrust.Lib.Calls
import TalentTrust.Lib.Json
import TalentTrust.Lib.OrderedMap

/-!
`processJob` and `runProcessorWithTimeout` of `QueueManager` (`queue/queue-manager.ts`).

A call that is accepted schedules the processor and puts the promise of its cleanup into
`activeExecutions` under the key of the job. From there on four things happen in any
order: a microtask invokes the processor, the processor settles, the timer rejects the
call, and microtasks that follow the settled processor clean up and answer the call. The
call may be answered long before the processor settles; the marker stays until the
cleanup.

`executions_exclusive` holds in every run. What a refused caller gets is the error of
`runProcessorWithTimeout` wrapped by `processJob`, an `Error` of its own
(`refusal_is_wrapped`).
-/

namespace TalentTrust.Queue

open TalentTrust.Lib

/-! ### Jobs and errors -/

def JobType.text : JobType → String
  | .emailNotification => "email-notification"
  | .contractProcessing => "contract-processing"
  | .reputationUpdate => "reputation-update"
  | .reputationRecompute => "reputation-recompute"
  | .blockchainSync => "blockchain-sync"

structure Job where
  id : Option String
  name : String
  data : Json
  deriving DecidableEq

def buildExecutionKey (jobType : JobType) (job : Job) : String :=
  jobType.text ++ ":" ++ job.id.getD job.name

structure JsError where
  name : String
  message : String
  deriving DecidableEq

variable (jobType : JobType) (jobId : Option String)

def jobTimeoutError (timeoutMs : Nat) : JsError :=
  ⟨"JobTimeoutError",
    "Job " ++ jobType.text ++ ":" ++ jobId.getD "unknown" ++ " timed out after " ++ toString timeoutMs ++ "ms"⟩

def jobExecutionAlreadyActiveError : JsError :=
  ⟨"JobExecutionAlreadyActiveError",
    "Job " ++ jobType.text ++ ":" ++ jobId.getD "unknown" ++ " already has an active execution"⟩

/-- What `processJob` throws for an error that it catches. -/
def processingFailed (message : String) : JsError := ⟨"Error", "Job processing failed: " ++ message⟩

/-- How a processor settles; what it throws need not be an `Error`. -/
inductive Outcome where
  | fulfilled (result : Json)
  | rejected (error : Option JsError)
  deriving DecidableEq

/-- The answer of `processJob` when the processor settles first. -/
def Outcome.answer : Outcome → Except JsError Json
  | .fulfilled result => .ok result
  | .rejected error => .error (processingFailed ((error.map JsError.message).getD "Unknown error"))

/-! ### Executions -/

inductive Stage where
  /-- The microtask that invokes the processor has not run. -/
  | scheduled
  /-- The processor was invoked and has not settled. -/
  | running
  | settled (outcome : Outcome)
  /-- The `finally` after the processor has run. -/
  | cleaned (outcome : Outcome)
  deriving DecidableEq

structure Execution where
  jobType : JobType
  job : Job
  stage : Stage
  /-- The timeout is set, and neither fired nor cleared. -/
  armed : Bool
  timedOut : Bool
  aborted : Bool
  /-- What the caller of `processJob` was given. -/
  answer : Option (Except JsError Json)

def Execution.key (e : Execution) : String := buildExecutionKey e.jobType e.job

/-- An execution is named by its position, which stands for its cleanup promise. -/
structure Executor where
  activeExecutions : OrderedMap String Nat
  executions : List Execution

structure Settings where
  /-- `jobProcessors` has a processor for the type. -/
  hasProcessor : JobType → Bool
  timeoutMs : JobType → Nat

variable (settings : Settings) (jobType : JobType) (job : Job) (x : Executor)

/-- `runProcessorWithTimeout`, which runs up to its end: the position of the new execution. -/
def runProcessorWithTimeout : Except JsError Nat × Executor :=
  let executionKey := buildExecutionKey jobType job
  if (x.activeExecutions.get? executionKey).isSome then
    (.error (jobExecutionAlreadyActiveError jobType job.id), x)
  else
    (.ok x.executions.length,
      { activeExecutions := x.activeExecutions.set executionKey x.executions.length
        executions := x.executions ++ [⟨jobType, job, .scheduled, true, false, false, none⟩] })

/-- `processJob` up to its `await`: it has thrown, or waits for an execution. -/
def processJob : Except JsError Nat × Executor :=
  if settings.hasProcessor jobType = false then
    (.error ⟨"Error", "No processor found for job type: " ++ jobType.text⟩, x)
  else
    match runProcessorWithTimeout jobType job x with
    | (.ok i, x) => (.ok i, x)
    | (.error error, x) => (.error (processingFailed error.message), x)

/-! ### What happens to an execution -/

inductive Happening where
  /-- The microtask that invokes the processor. -/
  | invoke
  /-- The processor settles. -/
  | settle (outcome : Outcome)
  /-- The timer fires. -/
  | fire
  /-- The microtask of the `finally` after the processor. -/
  | cleanup
  /-- The microtasks that answer the caller with what the processor came to. -/
  | answer
  deriving DecidableEq

def Execution.happen (e : Execution) : Happening → Execution
  | .invoke => if e.stage = .scheduled then { e with stage := .running } else e
  | .settle outcome => if e.stage = .running then { e with stage := .settled outcome } else e
  | .fire =>
    if e.armed then
      { e with
        armed := false
        timedOut := true
        aborted := true
        -- `Promise.race` keeps what came first.
        answer := e.answer.or
          (some (.error (processingFailed
            (jobTimeoutError e.jobType e.job.id (settings.timeoutMs e.jobType)).message))) }
    else e
  | .cleanup =>
    match e.stage with
    | .settled outcome => { e with stage := .cleaned outcome, armed := false }
    | _ => e
  | .answer =>
    match e.stage with
    | .settled outcome | .cleaned outcome => { e with answer := e.answer.or (some outcome.answer) }
    | _ => e

/-- The marker of execution `i` goes with its cleanup, unless another one has taken its place. -/
def unmark (i : Nat) (e : Execution) (active : OrderedMap String Nat) : Happening → OrderedMap String Nat
  | .cleanup =>
    match e.stage with
    | .settled _ => if active.get? e.key = some i then active.erase e.key else active
    | _ => active
  | _ => active

inductive Event where
  | processJob (jobType : JobType) (job : Job)
  | happen (i : Nat) (what : Happening)

def step : Event → Executor
  | .processJob jobType job => (processJob settings jobType job x).2
  | .happen i what =>
    match x.executions[i]? with
    | none => x
    | some e =>
      { activeExecutions := unmark i e x.activeExecutions what
        executions := x.executions.set i (e.happen settings what) }

def Executor.initial : Executor := ⟨.empty, []⟩

/-! ### Markers follow executions -/

def Stage.isUnsettled : Stage → Bool
  | .scheduled | .running => true
  | .settled _ | .cleaned _ => false

def Stage.isSettled : Stage → Bool
  | .settled _ => true
  | .scheduled | .running | .cleaned _ => false

def Stage.isCleaned : Stage → Bool
  | .cleaned _ => true
  | .scheduled | .running | .settled _ => false

/-- The processor is yet to be invoked, or has not settled. -/
def Execution.Unsettled (e : Execution) : Prop := e.stage.isUnsettled = true

/-- The cleanup has run. -/
def Execution.Cleaned (e : Execution) : Prop := e.stage.isCleaned = true

theorem Execution.Unsettled.not_cleaned {e : Execution} (unsettled : e.Unsettled) : ¬ e.Cleaned := by
  unfold Execution.Unsettled at unsettled
  unfold Execution.Cleaned
  revert unsettled
  cases e.stage <;> nofun

section Happenings

variable {settings} {e : Execution} {what : Happening} {active : OrderedMap String Nat} {i : Nat}

theorem key_happen : (e.happen settings what).key = e.key := by
  unfold Execution.happen
  split <;> split <;> rfl

variable (e what) in
/-- The cleanup that a settled processor is due. -/
def Execution.Ends : Prop := what = .cleanup ∧ e.stage.isSettled = true

instance (e : Execution) (what : Happening) : Decidable (e.Ends what) :=
  inferInstanceAs (Decidable (_ ∧ _))

theorem cleaned_happen_iff : (e.happen settings what).Cleaned ↔ e.Cleaned ∨ e.Ends what := by
  rcases e with ⟨jobType, job, stage, armed, timedOut, aborted, answer⟩
  unfold Execution.Cleaned Execution.Ends
  cases what <;> cases stage <;> cases armed <;>
    simp [Execution.happen, Stage.isCleaned, Stage.isSettled]

theorem unmark_eq : unmark i e active what =
    if e.Ends what ∧ active.get? e.key = some i then active.erase e.key else active := by
  unfold Execution.Ends
  cases what <;> simp only [unmark, reduceCtorEq, false_and, if_false, true_and]
  cases e.stage <;> simp [Stage.isSettled]

end Happenings

/-- A key is marked with its execution exactly while that is not cleaned up. -/
structure Marked : Prop where
  execution : ∀ key i, x.activeExecutions.get? key = some i →
    ∃ e, x.executions[i]? = some e ∧ e.key = key ∧ ¬ e.Cleaned
  marker : ∀ i e, x.executions[i]? = some e → ¬ e.Cleaned → x.activeExecutions.get? e.key = some i

namespace Marked

variable {settings} {x : Executor}

theorem initial : Marked .initial where
  execution key i found := by cases found
  marker i e found := by cases found

variable (marked : Marked x)

include marked

theorem runProcessorWithTimeout : Marked (Queue.runProcessorWithTimeout jobType job x).2 := by
  unfold Queue.runProcessorWithTimeout
  simp only
  split
  · exact marked
  · rename_i unmarked
    refine ⟨?_, ?_⟩
    · intro key i found
      rw [OrderedMap.get?_set] at found
      split at found
      · rename_i here
        cases found
        exact ⟨_, List.getElem?_concat_length, here.symm, nofun⟩
      · obtain ⟨e, at_i, named, open_⟩ := marked.execution key i found
        have within := (List.getElem?_eq_some_iff.mp at_i).1
        exact ⟨e, (List.getElem?_append_left within).trans at_i, named, open_⟩
    · intro i e found open_
      rcases getElem?_concat_eq_some found with old | ⟨rfl, rfl⟩
      · have held := marked.marker i e old open_
        have other : e.key ≠ buildExecutionKey jobType job := by
          intro same
          rw [← same, held] at unmarked
          exact unmarked rfl
        exact (OrderedMap.get?_set_of_ne _ _ other).trans held
      · exact OrderedMap.get?_set_self _ _ _

theorem processJob : Marked (Queue.processJob settings jobType job x).2 := by
  have run := marked.runProcessorWithTimeout jobType job
  unfold Queue.processJob
  split
  · exact marked
  · split
    · rename_i started
      rwa [started] at run
    · rename_i refused
      rwa [refused] at run

theorem happen {i : Nat} {e : Execution} (found : x.executions[i]? = some e) (what : Happening) :
    Marked ⟨unmark i e x.activeExecutions what, x.executions.set i (e.happen settings what)⟩ := by
  have here : (x.executions.set i (e.happen settings what))[i]? = some (e.happen settings what) :=
    List.getElem?_set_self (List.getElem?_eq_some_iff.mp found).1
  rw [unmark_eq]
  by_cases ends : e.Ends what
  · -- The cleanup of the execution that holds the marker.
    have open_ : ¬ e.Cleaned := by
      intro cleaned
      have settled := ends.2
      unfold Execution.Cleaned at cleaned
      revert cleaned settled
      cases e.stage <;> nofun
    have held := marked.marker i e found open_
    rw [if_pos ⟨ends, held⟩]
    refine ⟨?_, ?_⟩
    · intro key j still
      rw [OrderedMap.get?_erase] at still
      split at still
      · cases still
      · rename_i other
        obtain ⟨f, at_j, named, open_'⟩ := marked.execution key j still
        have apart : j ≠ i := by
          rintro rfl
          cases Option.some.inj (found.symm.trans at_j)
          exact other named.symm
        exact ⟨f, (List.getElem?_set_ne (Ne.symm apart)).trans at_j, named, open_'⟩
    · intro j f at_j open_'
      rcases getElem?_set_eq_some at_j with ⟨_, rfl⟩ | ⟨apart, old⟩
      · exact absurd (cleaned_happen_iff.mpr (.inr ends)) open_'
      · have held' := marked.marker j f old open_'
        rw [OrderedMap.get?_erase, if_neg]
        · exact held'
        · intro same
          rw [same, held] at held'
          exact apart (Option.some.inj held').symm
  · have cleaned_iff : (e.happen settings what).Cleaned ↔ e.Cleaned := by
      rw [cleaned_happen_iff, or_iff_left ends]
    rw [if_neg fun both => ends both.1]
    refine ⟨?_, ?_⟩
    · intro key j still
      obtain ⟨f, at_j, named, open_⟩ := marked.execution key j still
      by_cases same : j = i
      · subst same
        cases Option.some.inj (found.symm.trans at_j)
        exact ⟨_, here, key_happen.trans named, fun cleaned => open_ (cleaned_iff.mp cleaned)⟩
      · exact ⟨f, (List.getElem?_set_ne (Ne.symm same)).trans at_j, named, open_⟩
    · intro j f at_j open_
      rcases getElem?_set_eq_some at_j with ⟨rfl, rfl⟩ | ⟨_, old⟩
      · rw [key_happen]
        exact marked.marker j e found fun cleaned => open_ (cleaned_iff.mpr cleaned)
      · exact marked.marker j f old open_

theorem step (event : Event) : Marked (Queue.step settings x event) := by
  cases event with
  | processJob jobType job => exact marked.processJob jobType job
  | happen i what =>
    simp only [Queue.step]
    split
    · exact marked
    · rename_i e found
      exact marked.happen found what

end Marked

theorem processJob_of_marked {settings : Settings} {x : Executor} {jobType : JobType} {job : Job}
    (known : settings.hasProcessor jobType = true) {i : Nat}
    (held : x.activeExecutions.get? (buildExecutionKey jobType job) = some i) :
    processJob settings jobType job x =
      (.error (processingFailed (jobExecutionAlreadyActiveError jobType job.id).message), x) := by
  simp [processJob, runProcessorWithTimeout, known, held]

theorem processJob_of_unmarked {settings : Settings} {x : Executor} {jobType : JobType} {job : Job}
    (known : settings.hasProcessor jobType = true)
    (free : x.activeExecutions.get? (buildExecutionKey jobType job) = none) :
    (processJob settings jobType job x).1 = .ok x.executions.length ∧
      (processJob settings jobType job x).2.executions =
        x.executions ++ [⟨jobType, job, .scheduled, true, false, false, none⟩] := by
  simp [processJob, runProcessorWithTimeout, known, free]

/-- In every run: at most one processor invocation of each key is scheduled or unsettled. A call for
such a key is rejected, with the wrapped error, and nothing is started. Once every execution of the
key has been cleaned up, a call starts a new one. -/
theorem executions_exclusive (events : List Event) :
    DistinctBy Execution.key Execution.Unsettled (run (step settings) .initial events).executions ∧
      (∀ jobType job, settings.hasProcessor jobType = true →
        (∃ e ∈ (run (step settings) .initial events).executions,
          e.key = buildExecutionKey jobType job ∧ e.Unsettled) →
        processJob settings jobType job (run (step settings) .initial events) =
          (.error (processingFailed (jobExecutionAlreadyActiveError jobType job.id).message),
            run (step settings) .initial events)) ∧
      ∀ jobType job, settings.hasProcessor jobType = true →
        (∀ e ∈ (run (step settings) .initial events).executions,
          e.key = buildExecutionKey jobType job → e.Cleaned) →
        (processJob settings jobType job (run (step settings) .initial events)).1 =
            .ok (run (step settings) .initial events).executions.length ∧
          (processJob settings jobType job (run (step settings) .initial events)).2.executions =
            (run (step settings) .initial events).executions ++
              [⟨jobType, job, .scheduled, true, false, false, none⟩] := by
  have marked : Marked (run (step settings) .initial events) :=
    run_invariant (fun _ event marked => marked.step event) Marked.initial events
  generalize run (step settings) .initial events = x at marked
  refine ⟨?_, ?_, ?_⟩
  · intro i j e f at_i at_j unsettled unsettled' same
    have held := marked.marker i e at_i unsettled.not_cleaned
    have held' := marked.marker j f at_j unsettled'.not_cleaned
    rw [same, held'] at held
    exact (Option.some.inj held).symm
  · rintro jobType job known ⟨e, mem, named, unsettled⟩
    obtain ⟨i, at_i⟩ := List.mem_iff_getElem?.mp mem
    exact processJob_of_marked known (named ▸ marked.marker i e at_i unsettled.not_cleaned)
  · intro jobType job known cleaned
    refine processJob_of_unmarked known (Option.eq_none_iff_forall_not_mem.mpr fun i held => ?_)
    obtain ⟨e, at_i, named, open_⟩ := marked.execution _ i held
    exact open_ (cleaned e (List.mem_of_getElem? at_i) named)

/-! ### What a refused caller gets -/

def sampleSettings : Settings := ⟨fun _ => true, fun _ => 25⟩

def sampleJob : Job := ⟨some "7", "email-notification", .obj []⟩

/-- The processor of the first call has been invoked. -/
def oneRunning : Executor :=
  run (step sampleSettings) .initial [.processJob .emailNotification sampleJob, .happen 0 .invoke]

/-- The second call is rejected with an `Error` that is no `JobExecutionAlreadyActiveError`. -/
theorem refusal_is_wrapped :
    (∃ e ∈ oneRunning.executions, e.key = buildExecutionKey .emailNotification sampleJob ∧ e.Unsettled) ∧
      ∃ error, (processJob sampleSettings .emailNotification sampleJob oneRunning).1 = .error error ∧
        error.name = "Error" ∧
        error.message =
          "Job processing failed: Job email-notification:7 already has an active execution" := by
  refine ⟨⟨_, List.mem_cons_self, rfl, rfl⟩, _, rfl, rfl, ?_⟩
  decide +kernel

end TalentTrust.Queue
