import TalentTrust.Lib.Run
import Mathlib.Data.List.Pairwise

/-!
`TokenBucketLimiter` of `rateLimit.ts`: the waiters of one provider.

The bucket store is outside: it answers `consumeToken` at once or with a promise
that settles later, in any order. A run is a list of calls of `acquireToken`, of
drain timers that fire and of promises that settle, each with the answers that
the store gives.

Waiters are released first in, first out (`Ordered`). A token may be lost,
though: the call that asks for a token when nobody waits joins the queue while
its own promise is open, so a drain can ask for a second token for the same
waiter, and whichever promise comes last finds nobody to release. No token is
lost iff every promise that settles with a token still finds its waiter
(`tokens_conserved_iff`).
-/

namespace TalentTrust.RateLimit

open TalentTrust.Lib

/-! ### The limiter -/

/-- What `consumeToken` returns: `true`, `false`, or a promise. -/
inductive Reply where
  | consumed
  | refused
  | promise
  deriving DecidableEq, Repr

/-- How a promise of `consumeToken` settles. -/
inductive Outcome where
  | consumed
  | refused
  | rejected
  deriving DecidableEq, Repr

structure RateLimitQueueFullError where
  providerId : String
  code : String
  message : String
  deriving DecidableEq

def rateLimitQueueFullError (providerId : String) (maxQueueDepth : Nat) :
    RateLimitQueueFullError where
  providerId := providerId
  code := "RATE_LIMIT_QUEUE_FULL"
  message := "Rate-limit queue full for provider \"" ++ providerId ++ "\": max depth " ++
    toString maxQueueDepth ++ " reached. Route to DLQ."

/-- The provider, and the depth of its queue. Only the comparison with a length is made, so
a depth that is no natural number acts as the next one. -/
structure Config where
  providerId : String
  maxQueueDepth : Nat

/-- Who awaits a promise of `consumeToken`: the call of `acquireToken` with this waiter, or
a drain. -/
inductive Consumer where
  | acquirer (waiter : Nat)
  | drain
  deriving DecidableEq

structure State where
  /-- A waiter is the number of its call. -/
  queue : List Nat
  /-- A drain timer is set. -/
  timer : Bool
  /-- The promises that are open. -/
  pending : List Consumer
  /-- The calls of `acquireToken` so far. -/
  calls : Nat
  /-- The calls whose promise has resolved, in that order. -/
  released : List Nat
  /-- How often `consumeToken` has reported `true`. -/
  granted : Nat
  deriving DecidableEq

def State.initial : State := ⟨[], false, [], 0, [], 0⟩

/-- A waiter is resolved. A promise resolves once. -/
def resolve (waiter : Nat) (s : State) : State :=
  if waiter ∈ s.released then s else { s with released := s.released ++ [waiter] }

variable (s : State)

def scheduleDrain : State := { s with timer := true }

def scheduleIfWaiting : State := if s.queue = [] then s else scheduleDrain s

/-- `queue.shift()`, and the waiter it returns is resolved. -/
def shift : State :=
  match s.queue with
  | [] => s
  | waiter :: rest => resolve waiter { s with queue := rest }

def grant : State := { s with granted := s.granted + 1 }

/-- The second half of `acquireToken`: wait, unless the queue is full. -/
def enqueue (config : Config) (waiter : Nat) (s : State) :
    Except RateLimitQueueFullError Unit × State :=
  if config.maxQueueDepth ≤ s.queue.length then
    (.error (rateLimitQueueFullError config.providerId config.maxQueueDepth), s)
  else (.ok (), scheduleDrain { s with queue := s.queue ++ [waiter] })

/-- `acquireToken`; the store is asked only if nobody waits. A call that awaits its own
promise is queued without a look at the depth. -/
def acquireToken (config : Config) (reply : Reply) (s : State) :
    Except RateLimitQueueFullError Unit × State :=
  let waiter := s.calls
  let s := { s with calls := s.calls + 1 }
  if s.queue = [] then
    match reply with
    | .consumed => (.ok (), resolve waiter (grant s))
    | .promise =>
      (.ok (), { s with queue := s.queue ++ [waiter], pending := s.pending ++ [.acquirer waiter] })
    | .refused => enqueue config waiter s
  else enqueue config waiter s

/-- The promise of a call of `acquireToken` settles. -/
def onAcquired (waiter : Nat) (outcome : Outcome) (s : State) : State :=
  match outcome with
  | .consumed => resolve waiter { grant s with queue := s.queue.erase waiter }
  | .refused | .rejected => scheduleDrain s

/-- `drain`, with the answers that the store gives to it; it refuses when they are used up. -/
def drain : List Reply → State → State
  | [], s => scheduleIfWaiting s
  | .refused :: _, s => scheduleIfWaiting s
  | .promise :: _, s => if s.queue = [] then s else { s with pending := s.pending ++ [.drain] }
  | .consumed :: replies, s => if s.queue = [] then s else drain replies (shift (grant s))

/-- The promise of a drain settles. -/
def onDrained (outcome : Outcome) (s : State) : State :=
  match outcome with
  | .consumed => scheduleIfWaiting (shift (grant s))
  | .refused | .rejected => scheduleIfWaiting s

/-! ### The machine -/

inductive Event where
  | acquireToken (reply : Reply)
  /-- The drain timer fires. -/
  | fire (replies : List Reply)
  /-- The open promise at `index` settles. -/
  | settle (index : Nat) (outcome : Outcome)
  deriving DecidableEq

def onSettled (consumer : Consumer) (outcome : Outcome) (s : State) : State :=
  match consumer with
  | .acquirer waiter => onAcquired waiter outcome s
  | .drain => onDrained outcome s

def step (config : Config) (s : State) : Event → State
  | .acquireToken reply => (acquireToken config reply s).2
  | .fire replies => if s.timer then drain replies { s with timer := false } else s
  | .settle i outcome =>
    match s.pending[i]? with
    | none => s
    | some consumer => onSettled consumer outcome { s with pending := s.pending.eraseIdx i }

/-! ### First in, first out -/

/-- A new call joins the queue. -/
def push : State := { s with calls := s.calls + 1, queue := s.queue ++ [s.calls] }

/-- The released waiters and then the queue are in the order of their calls, and a call that
awaits its own promise is released or first in the queue. -/
structure Ordered : Prop where
  fifo : (s.released ++ s.queue).Pairwise (· < ·)
  made : ∀ waiter ∈ s.released ++ s.queue, waiter < s.calls
  served : ∀ waiter, .acquirer waiter ∈ s.pending →
    waiter ∈ s.released ∨ s.queue.head? = some waiter

theorem ordered_initial : Ordered .initial where
  fifo := List.Pairwise.nil
  made := nofun
  served := nofun

namespace Ordered

variable {s : State} {waiter : Nat} (ordered : Ordered s)

include ordered

theorem notMem_released (mem : waiter ∈ s.queue) : waiter ∉ s.released := by
  intro released
  exact absurd ((List.pairwise_append.mp ordered.fifo).2.2 waiter released waiter mem)
    (Nat.lt_irrefl _)

theorem scheduleDrain : Ordered (scheduleDrain s) :=
  ⟨ordered.fifo, ordered.made, ordered.served⟩

theorem scheduleIfWaiting : Ordered (scheduleIfWaiting s) := by
  unfold RateLimit.scheduleIfWaiting
  split
  · exact ordered
  · exact ordered.scheduleDrain

theorem grant : Ordered (grant s) :=
  ⟨ordered.fifo, ordered.made, ordered.served⟩

theorem shift_eq {rest : List Nat} (queue : s.queue = waiter :: rest) :
    shift s = { s with queue := rest, released := s.released ++ [waiter] } := by
  have unreleased : waiter ∉ s.released := ordered.notMem_released (by simp [queue])
  simp [shift, queue, resolve, if_neg unreleased]

theorem shift : Ordered (shift s) := by
  cases queue : s.queue with
  | nil => simpa only [RateLimit.shift, queue] using ordered
  | cons waiter rest =>
    have same : (s.released ++ [waiter]) ++ rest = s.released ++ s.queue := by simp [queue]
    rw [ordered.shift_eq queue]
    refine ⟨same ▸ ordered.fifo, same ▸ ordered.made, ?_⟩
    intro other pending
    left
    rcases ordered.served other pending with released | first
    · exact List.mem_append_left _ released
    · rw [queue, List.head?_cons] at first
      cases first
      simp

omit ordered

variable (ordered : Ordered s)

include ordered

/-- The promise of a call brings a token: either a drain has been faster, or the call is
the first in the queue. -/
theorem onAcquired_consumed (served : waiter ∈ s.released ∨ s.queue.head? = some waiter) :
    waiter ∈ s.released ∧ waiter ∉ s.queue ∧ onAcquired waiter .consumed s = RateLimit.grant s ∨
      waiter ∈ s.queue ∧ onAcquired waiter .consumed s = RateLimit.shift (RateLimit.grant s) := by
  rcases served with released | first
  · have absent : waiter ∉ s.queue := fun mem => ordered.notMem_released mem released
    left
    refine ⟨released, absent, ?_⟩
    simp [onAcquired, RateLimit.grant, resolve, released, List.erase_of_not_mem absent]
  · right
    cases queue : s.queue with
    | nil => simp [queue] at first
    | cons head rest =>
      rw [queue] at first
      cases first
      refine ⟨List.mem_cons_self, ?_⟩
      simp [onAcquired, RateLimit.grant, RateLimit.shift, queue]

theorem onAcquired (outcome : Outcome)
    (served : waiter ∈ s.released ∨ s.queue.head? = some waiter) :
    Ordered (onAcquired waiter outcome s) := by
  cases outcome with
  | consumed =>
    rcases ordered.onAcquired_consumed served with ⟨_, _, next⟩ | ⟨_, next⟩
    · exact next ▸ ordered.grant
    · exact next ▸ ordered.grant.shift
  | refused | rejected => exact ordered.scheduleDrain

theorem onDrained (outcome : Outcome) : Ordered (onDrained outcome s) := by
  cases outcome with
  | consumed => exact ordered.grant.shift.scheduleIfWaiting
  | refused | rejected => exact ordered.scheduleIfWaiting

theorem drain (replies : List Reply) : Ordered (drain replies s) := by
  induction replies generalizing s with
  | nil => exact ordered.scheduleIfWaiting
  | cons reply replies ih =>
    cases reply with
    | refused => exact ordered.scheduleIfWaiting
    | promise =>
      simp only [RateLimit.drain]
      split
      · exact ordered
      · refine ⟨ordered.fifo, ordered.made, fun waiter pending => ordered.served waiter ?_⟩
        simpa using pending
    | consumed =>
      simp only [RateLimit.drain]
      split
      · exact ordered
      · exact ih ordered.grant.shift

theorem push : Ordered (push s) := by
  have same : s.released ++ (s.queue ++ [s.calls]) = (s.released ++ s.queue) ++ [s.calls] := by simp
  refine ⟨?_, ?_, ?_⟩
  · show (s.released ++ (s.queue ++ [s.calls])).Pairwise (· < ·)
    rw [same, List.pairwise_append]
    refine ⟨ordered.fifo, List.pairwise_singleton _ _, ?_⟩
    intro earlier mem new isNew
    rw [List.mem_singleton.mp isNew]
    exact ordered.made earlier mem
  · show ∀ waiter ∈ s.released ++ (s.queue ++ [s.calls]), waiter < s.calls + 1
    rw [same]
    exact forall_mem_concat (fun waiter mem => Nat.lt_succ_of_lt (ordered.made waiter mem))
      (Nat.lt_succ_self _)
  · intro waiter pending
    refine (ordered.served waiter pending).imp_right fun first => ?_
    simp [RateLimit.push, first]

theorem unset : Ordered { s with timer := false } :=
  ⟨ordered.fifo, ordered.made, ordered.served⟩

theorem eraseIdx (i : Nat) : Ordered { s with pending := s.pending.eraseIdx i } :=
  ⟨ordered.fifo, ordered.made,
    fun waiter mem => ordered.served waiter (List.mem_of_mem_eraseIdx mem)⟩

theorem skip : Ordered { s with calls := s.calls + 1 } :=
  ⟨ordered.fifo, fun waiter mem => Nat.lt_succ_of_lt (ordered.made waiter mem), ordered.served⟩

end Ordered

variable (config : Config)

/-- What a call of `acquireToken` does: it gets a token at once, awaits its own promise, is
turned away, or waits for a drain. -/
theorem acquireToken_cases (reply : Reply) (s : State) :
    (acquireToken config reply s).2 = shift (grant (push s)) ∨
      s.queue = [] ∧ (acquireToken config reply s).2 =
        { push s with pending := s.pending ++ [.acquirer s.calls] } ∨
      (acquireToken config reply s).2 = { s with calls := s.calls + 1 } ∨
      (acquireToken config reply s).2 = scheduleDrain (push s) := by
  have waits : ∀ waiter, (enqueue config waiter { s with calls := s.calls + 1 }).2 =
      { s with calls := s.calls + 1 } ∨
      (enqueue config waiter { s with calls := s.calls + 1 }).2 =
        scheduleDrain { s with calls := s.calls + 1, queue := s.queue ++ [waiter] } := by
    intro waiter
    unfold enqueue
    split
    · exact .inl rfl
    · exact .inr rfl
  unfold acquireToken
  dsimp only
  split
  · rename_i empty
    cases reply with
    | consumed =>
      left
      simp [shift, grant, push, resolve, empty]
    | promise => exact .inr (.inl ⟨empty, rfl⟩)
    | refused => exact .inr (.inr (waits s.calls))
  · exact .inr (.inr (waits s.calls))

variable {s : State}

theorem ordered_step (ordered : Ordered s) (e : Event) : Ordered (step config s e) := by
  cases e with
  | acquireToken reply =>
    change Ordered (acquireToken config reply s).2
    rcases acquireToken_cases config reply s with next | ⟨empty, next⟩ | next | next
    · exact next ▸ ordered.push.grant.shift
    · have pushed := ordered.push
      refine next ▸ ⟨pushed.fifo, pushed.made, ?_⟩
      intro waiter pending
      rcases List.mem_append.mp pending with pending | own
      · exact pushed.served waiter pending
      · cases List.mem_singleton.mp own
        right
        simp [push, empty]
    · exact next ▸ ordered.skip
    · exact next ▸ ordered.push.scheduleDrain
  | fire replies =>
    simp only [step]
    split
    · exact ordered.unset.drain replies
    · exact ordered
  | settle i outcome =>
    simp only [step]
    cases found : s.pending[i]? with
    | none => exact ordered
    | some consumer =>
      cases consumer with
      | drain => exact (ordered.eraseIdx i).onDrained outcome
      | acquirer waiter =>
        exact (ordered.eraseIdx i).onAcquired outcome
          (ordered.served waiter (List.mem_of_getElem? found))

/-! ### Tokens -/

/-- As many calls have been released as tokens were reported. -/
def Conserved (s : State) : Prop := s.released.length = s.granted

theorem conserved_scheduleIfWaiting (s : State) :
    Conserved (scheduleIfWaiting s) ↔ Conserved s := by
  unfold scheduleIfWaiting
  split <;> rfl

theorem conserved_shift_grant (ordered : Ordered s) (waiting : s.queue ≠ []) :
    Conserved (shift (grant s)) ↔ Conserved s := by
  obtain ⟨waiter, rest, queue⟩ := List.exists_cons_of_ne_nil waiting
  rw [ordered.grant.shift_eq queue]
  simp [Conserved, grant]

theorem conserved_drain (ordered : Ordered s) (replies : List Reply) :
    Conserved (drain replies s) ↔ Conserved s := by
  induction replies generalizing s with
  | nil => exact conserved_scheduleIfWaiting s
  | cons reply replies ih =>
    cases reply with
    | refused => exact conserved_scheduleIfWaiting s
    | promise =>
      simp only [drain]
      split <;> rfl
    | consumed =>
      simp only [drain]
      split
      · rfl
      · rename_i waiting
        exact (ih ordered.grant.shift).trans (conserved_shift_grant ordered waiting)

theorem not_conserved_grant (conserved : Conserved s) : ¬ Conserved (grant s) := by
  unfold Conserved grant at *
  dsimp only
  omega

/-- The promise still finds its waiter: a call of `acquireToken` its own, a drain any. -/
def Consumer.Finds (s : State) : Consumer → Prop
  | .acquirer waiter => waiter ∈ s.queue
  | .drain => s.queue ≠ []

instance (s : State) : (consumer : Consumer) → Decidable (consumer.Finds s)
  | .acquirer waiter => inferInstanceAs (Decidable (waiter ∈ s.queue))
  | .drain => inferInstanceAs (Decidable (s.queue ≠ []))

/-- A promise that settles with a token still finds its waiter. -/
def FindsWaiter (s : State) : Event → Prop
  | .settle i .consumed => ∀ consumer ∈ s.pending[i]?, consumer.Finds s
  | _ => True

theorem conserved_onSettled (ordered : Ordered s) (conserved : Conserved s) (consumer : Consumer)
    (served : ∀ waiter, consumer = .acquirer waiter → waiter ∈ s.released ∨
      s.queue.head? = some waiter) :
    Conserved (onSettled consumer .consumed s) ↔ consumer.Finds s := by
  cases consumer with
  | acquirer waiter =>
    rcases ordered.onAcquired_consumed (served waiter rfl) with ⟨_, absent, next⟩ | ⟨mem, next⟩
    · refine iff_of_false ?_ absent
      rw [onSettled, next]
      exact not_conserved_grant conserved
    · refine iff_of_true ?_ mem
      rw [onSettled, next]
      exact (conserved_shift_grant ordered (List.ne_nil_of_mem mem)).mpr conserved
  | drain =>
    simp only [onSettled, onDrained, conserved_scheduleIfWaiting, Consumer.Finds]
    by_cases waiting : s.queue = []
    · have nobody : shift (grant s) = grant s := by simp [shift, grant, waiting]
      rw [nobody]
      exact iff_of_false (not_conserved_grant conserved) (not_not.mpr waiting)
    · exact iff_of_true ((conserved_shift_grant ordered waiting).mpr conserved) waiting

theorem conserved_step_iff (ordered : Ordered s) (conserved : Conserved s) (e : Event) :
    Conserved (step config s e) ↔ FindsWaiter s e := by
  cases e with
  | acquireToken reply =>
    refine iff_of_true ?_ trivial
    rcases acquireToken_cases config reply s with next | ⟨_, next⟩ | next | next
    · have joined : (push s).queue ≠ [] := by simp [push]
      rw [step, next, conserved_shift_grant ordered.push joined]
      exact conserved
    all_goals
      rw [step, next]
      exact conserved
  | fire replies =>
    refine iff_of_true ?_ trivial
    simp only [step]
    split
    · exact (conserved_drain ordered.unset replies).mpr conserved
    · exact conserved
  | settle i outcome =>
    simp only [step]
    cases found : s.pending[i]? with
    | none =>
      refine iff_of_true conserved ?_
      cases outcome <;> simp [FindsWaiter, found]
    | some consumer =>
      have served : ∀ waiter, consumer = .acquirer waiter →
          waiter ∈ s.released ∨ s.queue.head? = some waiter := by
        rintro waiter rfl
        exact ordered.served waiter (List.mem_of_getElem? found)
      cases outcome with
      | consumed =>
        refine (conserved_onSettled (ordered.eraseIdx i) conserved consumer served).trans ?_
        cases consumer <;> simp [FindsWaiter, found, Consumer.Finds]
      | refused | rejected =>
        refine iff_of_true ?_ trivial
        cases consumer with
        | acquirer waiter => exact conserved
        | drain => exact (conserved_scheduleIfWaiting _).mpr conserved

structure Sound (s : State) : Prop extends Ordered s where
  conserved : Conserved s

theorem sound_step (s : State) (e : Event) (sound : Sound s) (cond : FindsWaiter s e) :
    Sound (step config s e) where
  toOrdered := ordered_step config sound.toOrdered e
  conserved := (conserved_step_iff config sound.toOrdered sound.conserved e).mpr cond

/-- Waiters are released in the order of their calls, none before one that is still queued
ahead of it, and each for one token. -/
structure FairlyReleased (s : State) : Prop where
  fifo : (s.released ++ s.queue).Pairwise (· < ·)
  conserved : s.released.length = s.granted

/-- In every state of a run the waiters are released in order and one for each token, iff
every promise that settles with a token still finds its waiter. -/
theorem tokens_conserved_iff (config : Config) (events : List Event) :
    Along (step config) FindsWaiter .initial events ↔
      ∀ fs, fs <+: events → FairlyReleased (run (step config) .initial fs) := by
  refine along_iff_always (sound_step config) ?_ ?_ ⟨ordered_initial, rfl⟩
  · intro s sound
    exact ⟨sound.fifo, sound.conserved⟩
  · intro s e sound good
    exact (conserved_step_iff config sound.toOrdered sound.conserved e).mp good.conserved

/-- Call 0 awaits its own promise and call 1 waits behind it. The drain asks for a token for
the first in the queue, call 0, and then the promise of call 0 brings another one: two
tokens, one call released. -/
theorem token_lost_to_drain :
    let s := run (step ⟨"p", 100⟩) .initial
      [.acquireToken .promise, .acquireToken .promise, .fire [.promise], .settle 1 .consumed,
        .settle 0 .consumed]
    s.released = [0] ∧ s.queue = [1] ∧ s.granted = 2 := by
  decide

end TalentTrust.RateLimit
