import TalentTrust.Lib.Run
import Mathlib.Data.List.Induction

/-!
The shutdown of `QueueManager` (`queue/queue-manager.ts`) by
`drainShutdownHandlers` (`shutdown.ts`).

The coordinator calls `stopAccepting`, waits for `drain` or its timer, calls
`checkpoint` if the timer was first, and then `close`. `stopAccepting` sets
`isShuttingDown`, and `close` runs `shutdown`, which takes that flag for a
shutdown that is already going on. So the manager is closed only if it had no
queue (`closed_by_drain_iff`), and a manager left open so stays open whatever is
called on it later (`stays_open`).
-/

namespace TalentTrust.Queue

open TalentTrust.Lib

inductive JobType where
  | emailNotification
  | contractProcessing
  | reputationUpdate
  | reputationRecompute
  | blockchainSync
  deriving DecidableEq, Repr

/-! ### The manager -/

/-- The BullMQ objects of a queue. -/
inductive Kind where
  | worker
  | queue
  | queueEvents
  deriving DecidableEq, Repr

/-- The three maps by their keys, the two flags, and the objects whose `close()` has resolved.
A job type is initialized at most once, so it names its objects. -/
structure Manager where
  queues : List JobType
  workers : List JobType
  queueEvents : List JobType
  isShuttingDown : Bool
  acceptingJobs : Bool
  closed : List (Kind × JobType)
  deriving DecidableEq

def Manager.fresh : Manager := ⟨[], [], [], false, true, []⟩

/-- The objects in the maps, in the order in which `shutdown` closes them. -/
def Manager.objects (m : Manager) : List (Kind × JobType) :=
  m.workers.map (Kind.worker, ·) ++ m.queues.map (Kind.queue, ·) ++
    m.queueEvents.map (Kind.queueEvents, ·)

/-- `initializeQueue`; it throws when the manager accepts no jobs. -/
def initializeQueue (jobType : JobType) (m : Manager) : Except String Manager :=
  if !m.acceptingJobs then
    .error "Queue manager is shutting down and no new queues can be initialized"
  else if jobType ∈ m.queues then .ok m
  else
    .ok { m with
      queues := m.queues ++ [jobType]
      workers := m.workers ++ [jobType]
      queueEvents := m.queueEvents ++ [jobType] }

def stopAccepting (m : Manager) : Manager := { m with acceptingJobs := false, isShuttingDown := true }

/-- `shutdown`, given that the promises of `close()` resolve. -/
def shutdown (m : Manager) : Manager :=
  if m.queues = [] ∧ m.workers = [] ∧ m.queueEvents = [] then
    { m with isShuttingDown := false, acceptingJobs := false }
  else if m.isShuttingDown then m
  else
    { queues := []
      workers := []
      queueEvents := []
      isShuttingDown := false
      acceptingJobs := false
      closed := m.closed ++ m.objects }

def close (m : Manager) : Manager := shutdown m

/-- Whether `drain` returns before the timer of the coordinator fires. `polls` are the active
counts that it has read until then. -/
def drain (m : Manager) : List (JobType → Nat) → Bool
  | [] => m.queues = []
  | counts :: polls => m.queues.all (fun jobType => counts jobType = 0) || drain m polls

/-- `checkpoint` only logs. -/
def checkpoint (m : Manager) : Manager := m

/-! ### The coordinator -/

/-- `drainShutdownHandlers`, as the manager sees it, and what it logs. `othersLate` says that
the drain of another handler has not returned when the timer fires. -/
def drainShutdownHandlers (polls : List (JobType → Nat)) (othersLate : Bool) (m : Manager) :
    Manager × List String :=
  let m := stopAccepting m
  if drain m polls && !othersLate then
    (close m, ["shutdown_drainers_started", "shutdown_drainers_drained"])
  else
    (close (checkpoint m),
      ["shutdown_drainers_started", "shutdown_drainers_timeout", "shutdown_drainers_checkpointed"])

/-- All objects of a manager are closed, and the maps are empty. -/
def AllClosed (before m : Manager) : Prop :=
  (∀ object ∈ before.objects, object ∈ m.closed) ∧
    m.queues = [] ∧ m.workers = [] ∧ m.queueEvents = []

instance (before m : Manager) : Decidable (AllClosed before m) :=
  inferInstanceAs (Decidable (_ ∧ _ ∧ _ ∧ _))

variable (jobTypes : List JobType)

def initialized : Manager :=
  jobTypes.foldl (fun m jobType => (initializeQueue jobType m).toOption.getD m) .fresh

theorem initialized_append_singleton (jobType : JobType) :
    initialized (jobTypes ++ [jobType]) =
      (initializeQueue jobType (initialized jobTypes)).toOption.getD (initialized jobTypes) := by
  rw [initialized, List.foldl_append]
  rfl

theorem initialized_spec :
    let m := initialized jobTypes
    m.workers = m.queues ∧ m.queueEvents = m.queues ∧ m.isShuttingDown = false ∧
      m.acceptingJobs = true ∧ m.closed = [] ∧ ∀ jobType, jobType ∈ m.queues ↔ jobType ∈ jobTypes := by
  induction jobTypes using List.reverseRecOn with
  | nil => exact ⟨rfl, rfl, rfl, rfl, rfl, fun _ => Iff.rfl⟩
  | append_singleton jobTypes last ih =>
    obtain ⟨workers, events, calm, accepting, closed, keys⟩ := ih
    rw [initialized_append_singleton, initializeQueue, accepting]
    by_cases known : last ∈ (initialized jobTypes).queues
    · simp only [known, if_true, Bool.not_true, Bool.false_eq_true, if_false, Except.toOption,
        Option.getD_some]
      refine ⟨workers, events, calm, accepting, closed, fun jobType => ?_⟩
      rw [keys, List.mem_append, List.mem_singleton]
      exact ⟨.inl, fun h => h.elim id fun same => same ▸ (keys last).mp known⟩
    · simp only [known, if_false, Bool.not_true, Bool.false_eq_true, Except.toOption,
        Option.getD_some]
      refine ⟨by rw [workers], by rw [events], calm, trivial, closed, fun jobType => ?_⟩
      rw [List.mem_append, List.mem_append, keys]

variable {m : Manager}

/-- `close` has nothing to do but to return. -/
theorem close_stopAccepting (open_ : m.queues ≠ []) :
    close (stopAccepting m) = stopAccepting m := by
  have busy : (stopAccepting m).isShuttingDown = true := rfl
  rw [close, shutdown, if_neg (fun empty => open_ empty.1), if_pos busy]

theorem fst_drainShutdownHandlers (open_ : m.queues ≠ [])
    (polls : List (JobType → Nat)) (othersLate : Bool) :
    (drainShutdownHandlers polls othersLate m).1 = stopAccepting m := by
  cases inTime : drain (stopAccepting m) polls && !othersLate with
  | true =>
    simp only [drainShutdownHandlers, inTime, if_true]
    exact close_stopAccepting open_
  | false =>
    simp only [drainShutdownHandlers, inTime, checkpoint, Bool.false_eq_true, if_false]
    exact close_stopAccepting open_

/-- The coordinator closes the queue manager exactly when no queue was initialized, whether the
drain returns in time or not. -/
theorem closed_by_drain_iff (jobTypes : List JobType) (polls : List (JobType → Nat))
    (othersLate : Bool) :
    AllClosed (initialized jobTypes)
        (drainShutdownHandlers polls othersLate (initialized jobTypes)).1 ↔
      jobTypes = [] := by
  constructor
  · intro closed
    obtain ⟨-, -, -, -, -, keys⟩ := initialized_spec jobTypes
    have none_left : (initialized jobTypes).queues = [] := by
      by_contra open_
      rw [fst_drainShutdownHandlers open_] at closed
      exact open_ closed.2.1
    refine List.eq_nil_iff_forall_not_mem.mpr fun jobType mem => ?_
    have held := (keys jobType).mpr mem
    rw [none_left] at held
    cases held
  · rintro rfl
    cases drained : drain (stopAccepting (initialized [])) polls && !othersLate <;>
      · simp only [drainShutdownHandlers, drained]
        decide

/-- A queue whose jobs are all done: the drain returns, and nothing is closed. -/
theorem open_after_drain :
    let m := initialized [.emailNotification]
    (drainShutdownHandlers [fun _ => 0] false m).2 =
        ["shutdown_drainers_started", "shutdown_drainers_drained"] ∧
      (drainShutdownHandlers [fun _ => 0] false m).1.closed = [] ∧
      ¬ AllClosed m (drainShutdownHandlers [fun _ => 0] false m).1 := by
  decide

/-! ### Afterwards -/

inductive Call where
  | initializeQueue (jobType : JobType)
  | stopAccepting
  | checkpoint
  | close
  | shutdown
  deriving DecidableEq

def call (m : Manager) : Call → Manager
  | .initializeQueue jobType => (initializeQueue jobType m).toOption.getD m
  | .stopAccepting => stopAccepting m
  | .checkpoint => checkpoint m
  | .close => close m
  | .shutdown => shutdown m

/-- A manager with queues that takes itself to be shutting down is not changed by any call. -/
theorem call_of_stuck (open_ : m.queues ≠ []) (c : Call) :
    call (stopAccepting m) c = stopAccepting m := by
  cases c with
  | initializeQueue jobType | stopAccepting => rfl
  | checkpoint => rfl
  | close | shutdown => exact close_stopAccepting open_

/-- Once the coordinator has left queues open, no later call closes anything. -/
theorem stays_open (open_ : m.queues ≠ []) (polls : List (JobType → Nat))
    (othersLate : Bool) (calls : List Call) :
    run call (drainShutdownHandlers polls othersLate m).1 calls = stopAccepting m := by
  rw [fst_drainShutdownHandlers open_]
  have stuck : ∀ m' c, m' = stopAccepting m → call m' c = stopAccepting m :=
    fun _ c same => same ▸ call_of_stuck open_ c
  exact run_invariant stuck rfl calls

theorem stays_open_after_shutdown :
    run call (drainShutdownHandlers [fun _ => 0] false (initialized [.emailNotification])).1
      [.close, .shutdown] = stopAccepting (initialized [.emailNotification]) :=
  stays_open (by decide) _ _ _

end TalentTrust.Queue
