import TalentTrust.Events.Envelope
import TalentTrust.Lib.CheckThenWrite
import TalentTrust.Lib.OrderedMap

/-!
`ContractEventProcessor.ingest` over the in-memory event repository.

A call of `ingest` gives way twice: after `hasEventKey` has read the map, and
after `saveEvent` has written it. Between these points it runs without
interruption, so a run is a list of calls begun and calls resumed, in any
order. Seen from one event key, every step of the machine is a step of
check-then-write (`step_keyStep`): the key is ingested once as long as no call
checks a free key while another call for it has yet to save
(`ingest_effectively_once`).
-/

namespace TalentTrust.Events

open TalentTrust.Lib

structure PersistedContractEvent extends ContractEvent where
  eventKey : String
  receivedAt : String
  deriving DecidableEq

abbrev EventRepository := OrderedMap String PersistedContractEvent

def hasEventKey (repository : EventRepository) (eventKey : String) : Bool := repository.has eventKey

def saveEvent (repository : EventRepository) (event : PersistedContractEvent) : EventRepository :=
  repository.set event.eventKey event

/-- The record that `ingest` stores. -/
def persisted (event : ContractEvent) (receivedAt : String) : PersistedContractEvent :=
  { event with eventKey := buildEventKey event, receivedAt := receivedAt }

/-- `IngestResult`: the status with the field that comes with it. -/
inductive IngestResult where
  | accepted (eventKey : String)
  | duplicate (eventKey : String)
  | invalid (reason : String)
  deriving DecidableEq

namespace Processor

/-! ### The machine -/

inductive Phase where
  /-- It awaits `hasEventKey`, which has read `found`. -/
  | checking (found : Bool)
  /-- It awaits `saveEvent`, which has stored `event`. -/
  | saving (event : PersistedContractEvent)
  /-- It has returned; `accepted` remembers what it stored. -/
  | accepted (event : PersistedContractEvent)
  | duplicate (eventKey : String)
  | invalid (reason : String)
  deriving DecidableEq

structure Call where
  payload : Json
  phase : Phase
  deriving DecidableEq

structure State where
  repository : EventRepository
  calls : List Call
  deriving DecidableEq

def State.initial : State := ⟨.empty, []⟩

inductive Event where
  /-- A caller calls `ingest(payload)`. -/
  | ingest (payload : Json)
  /-- The call at `index` goes on; `now` is the clock's ISO text. -/
  | resume (index : Nat) (now : String)
  deriving DecidableEq

/-- `ingest` up to its first `await`. -/
def begin (host : Host) (repository : EventRepository) (payload : Json) : Call where
  payload := payload
  phase :=
    match validateContractEventPayload host payload with
    | .error reason => .invalid reason
    | .ok event => .checking (hasEventKey repository (buildEventKey event))

/-- `ingest` from one `await` to the next. -/
def proceed (host : Host) (now : String) (repository : EventRepository) (call : Call) :
    EventRepository × Call :=
  match call.phase, validateContractEventPayload host call.payload with
  | .checking true, .ok event => (repository, { call with phase := .duplicate (buildEventKey event) })
  | .checking false, .ok event =>
    (saveEvent repository (persisted event now),
      { call with phase := .saving (persisted event now) })
  | .saving event, _ => (repository, { call with phase := .accepted event })
  | _, _ => (repository, call)

def State.view (s : State) : EventRepository × List Call := (s.repository, s.calls)

def step (host : Host) (s : State) : Event → State
  | .ingest payload => { s with calls := s.calls ++ [begin host s.repository payload] }
  | .resume i now =>
    let next := resumeAt (proceed host now) i s.view
    ⟨next.1, next.2⟩

def Call.result? (call : Call) : Option IngestResult :=
  match call.phase with
  | .checking _ | .saving _ => none
  | .accepted event => some (.accepted event.eventKey)
  | .duplicate eventKey => some (.duplicate eventKey)
  | .invalid reason => some (.invalid reason)

variable (host : Host)

/-- The event of a call, if its payload is valid. -/
def Call.event? (call : Call) : Option ContractEvent :=
  (validateContractEventPayload host call.payload).toOption

def Call.eventKey? (call : Call) : Option String :=
  (call.event? host).map buildEventKey

def callsOf (s : State) (k : String) : List Call :=
  s.calls.filter fun call => call.eventKey? host = some k

/-! ### Calls keep to their payload -/

/-- What the phase of a call says about its payload. -/
def Coherent (call : Call) : Prop :=
  match call.phase with
  | .checking _ => ∃ event, validateContractEventPayload host call.payload = .ok event
  | .saving stored | .accepted stored => ∃ event now,
      validateContractEventPayload host call.payload = .ok event ∧ stored = persisted event now
  | .duplicate eventKey => ∃ event,
      validateContractEventPayload host call.payload = .ok event ∧ eventKey = buildEventKey event
  | .invalid reason => validateContractEventPayload host call.payload = .error reason

theorem coherent_begin (repository : EventRepository) (payload : Json) :
    Coherent host (begin host repository payload) := by
  cases valid : validateContractEventPayload host payload with
  | error reason | ok event => simp [Coherent, begin, valid]

variable {host : Host} (now : String)

theorem coherent_proceed (repository : EventRepository) (call : Call) (ok : Coherent host call) :
    Coherent host (proceed host now repository call).2 := by
  obtain ⟨payload, phase⟩ := call
  cases phase with
  | checking found =>
    obtain ⟨event, valid⟩ := ok
    cases found with
    | false | true => simp [Coherent, proceed, valid]
  | saving | accepted => exact ok
  | duplicate | invalid => exact ok

theorem coherent_step (s : State) (e : Event) (ok : ∀ call ∈ s.calls, Coherent host call) :
    ∀ call ∈ (step host s e).calls, Coherent host call := by
  cases e with
  | ingest payload => exact forall_mem_concat ok (coherent_begin host s.repository payload)
  | resume i now => exact forall_mem_resumeAt (s := s.view) (coherent_proceed now) i ok

/-! ### One key of the machine is check-then-write -/

/-- A call as an attempt on its key. -/
def Call.attempt (call : Call) : Attempt PersistedContractEvent Unit :=
  match call.phase with
  | .checking false => .free
  | .checking true => .taken ()
  | .saving event | .accepted event => .wrote event
  | .duplicate _ | .invalid _ => .taken ()

def attempts (host : Host) (s : State) (k : String) : List (Attempt PersistedContractEvent Unit) :=
  attemptsOn (Call.eventKey? host) Call.attempt s.calls k

theorem attempts_eq_map (host : Host) (s : State) (k : String) :
    attempts host s k = (callsOf host s k).map Call.attempt := rfl

variable {call : Call} {k : String}

theorem eventKey?_eq_some_iff :
    call.eventKey? host = some k ↔
      ∃ event, validateContractEventPayload host call.payload = .ok event ∧ buildEventKey event = k := by
  unfold Call.eventKey? Call.event?
  cases validateContractEventPayload host call.payload with
  | error reason | ok event => simp [Except.toOption]

variable {repository : EventRepository}

/-- A call that goes on does nothing to other keys; on its own it leaves the
stored event alone, or stores one after having found none. -/
theorem proceed_spec (coherent : Coherent host call) (k : String) :
    TurnSpec (Call.eventKey? host) Call.attempt (OrderedMap.get? · k) k (proceed host now)
      repository call := by
  obtain ⟨payload, phase⟩ := call
  cases phase with
  | checking found =>
    obtain ⟨event, valid⟩ := coherent
    have key : (⟨payload, .checking found⟩ : Call).eventKey? host = some (buildEventKey event) :=
      eventKey?_eq_some_iff.mpr ⟨event, valid, rfl⟩
    cases found with
    | false =>
      have saved : proceed host now repository ⟨payload, .checking false⟩ =
          (saveEvent repository (persisted event now), ⟨payload, .saving (persisted event now)⟩) := by
        simp [proceed, valid]
      refine ⟨by rw [saved]; rfl, fun other => ?_, fun own => .inr ⟨rfl, _, by rw [saved]; rfl, ?_⟩⟩
      · rw [saved]
        exact OrderedMap.get?_set_of_ne _ _ fun eq => other (eq ▸ key)
      · rw [saved, ← Option.some.inj (key.symm.trans own)]
        exact OrderedMap.get?_set_self _ _ _
    | true =>
      have same : proceed host now repository ⟨payload, .checking true⟩ =
          (repository, ⟨payload, .duplicate (buildEventKey event)⟩) := by
        simp [proceed, valid]
      exact ⟨by rw [same]; rfl, fun _ => by rw [same],
        fun _ => .inl ⟨by rw [same]; rfl, by rw [same]⟩⟩
  | saving stored | accepted stored => exact ⟨rfl, fun _ => rfl, fun _ => .inl ⟨rfl, rfl⟩⟩
  | duplicate eventKey | invalid reason => exact ⟨rfl, fun _ => rfl, fun _ => .inl ⟨rfl, rfl⟩⟩

variable {payload : Json}

theorem attempt_begin (key : (begin host repository payload).eventKey? host = some k) :
    (begin host repository payload).attempt = readAttempt (fun _ => ()) (repository.get? k) := by
  obtain ⟨event, valid, rfl⟩ := eventKey?_eq_some_iff.mp key
  have valid' : validateContractEventPayload host payload = .ok event := valid
  cases stored : repository.get? (buildEventKey event) with
  | none | some old => simp [begin, Call.attempt, valid', hasEventKey, OrderedMap.has, stored, readAttempt]

variable {s : State}

/-- Seen from one event key, every step of the machine is check-then-write. -/
theorem step_keyStep (ok : ∀ call ∈ s.calls, Coherent host call) (e : Event) (k : String) :
    KeyStep (fun _ => ()) (s.repository.get? k) (attempts host s k)
      ((step host s e).repository.get? k) (attempts host (step host s e) k) := by
  cases e with
  | ingest payload => exact keyStep_append s.calls attempt_begin
  | resume i now =>
    exact keyStep_resumeAt (s := s.view) [] i fun call found =>
      proceed_spec now (ok call (List.mem_of_getElem? found)) k

/-! ### Effectively once -/

/-- `ingest` is not called for a free key while another call has found that key
free and has not saved yet. -/
def NoOpenCheck (host : Host) (s : State) : Event → Prop
  | .ingest payload =>
    match validateContractEventPayload host payload with
    | .error _ => True
    | .ok event => hasEventKey s.repository (buildEventKey event) = false →
        ∀ call ∈ callsOf host s (buildEventKey event), call.phase ≠ .checking false
  | .resume _ _ => True

instance (host : Host) (s : State) : (e : Event) → Decidable (NoOpenCheck host s e)
  | .ingest payload => by unfold NoOpenCheck; dsimp only; split <;> infer_instance
  | .resume _ _ => inferInstanceAs (Decidable True)

/-- Once every call of key `k` has returned, exactly one of them was accepted,
its event is the stored one, and all others are duplicates. -/
def EffectivelyOnce (host : Host) (s : State) (k : String) : Prop :=
  callsOf host s k ≠ [] → (∀ call ∈ callsOf host s k, call.result?.isSome = true) →
    (callsOf host s k).countP (fun call => call.result? = some (.accepted k)) = 1 ∧
    ∀ call ∈ callsOf host s k, call.result? = some (.duplicate k) ∨
      (call.result? = some (.accepted k) ∧
        (s.repository.get? k).map PersistedContractEvent.toContractEvent = call.event? host)

instance (host : Host) (s : State) (k : String) : Decidable (EffectivelyOnce host s k) := by
  unfold EffectivelyOnce
  infer_instance

theorem phase_of_attempt_free (free : call.attempt = .free) : call.phase = .checking false := by
  obtain ⟨payload, phase⟩ := call
  cases phase with
  | checking found => cases found <;> simp [Call.attempt] at free ⊢
  | _ => simp [Call.attempt] at free

theorem orderly_of_noOpenCheck {e : Event} (ok : ∀ call ∈ s.calls, Coherent host call)
    (cond : NoOpenCheck host s e) (k : String) :
    Orderly (s.repository.get? k) (attempts host s k) (attempts host (step host s e) k) := by
  cases e with
  | ingest payload =>
    refine orderly_append fun key stored mem => ?_
    obtain ⟨event, valid, rfl⟩ := eventKey?_eq_some_iff.mp key
    have valid' : validateContractEventPayload host payload = .ok event := valid
    simp only [NoOpenCheck, valid', hasEventKey, OrderedMap.has, stored] at cond
    obtain ⟨call, inCalls, free⟩ := List.mem_map.mp mem
    exact cond rfl call inCalls (phase_of_attempt_free free)
  | resume i now =>
    exact orderly_resumeAt (s := s.view) [] i (fun call found =>
      proceed_spec now (ok call (List.mem_of_getElem? found)) k) _

/-- What an orderly run keeps: every call keeps to its payload, every key is exclusive. -/
structure Invariant (host : Host) (s : State) : Prop where
  coherent : ∀ call ∈ s.calls, Coherent host call
  exclusive : ∀ k, Exclusive (fun _ => ()) none (s.repository.get? k) (attempts host s k)

theorem invariant_initial (host : Host) : Invariant host State.initial :=
  ⟨by simp [State.initial], fun _ => exclusive_start (fun _ => ()) none⟩

theorem Invariant.step (s : State) (e : Event) (inv : Invariant host s)
    (cond : NoOpenCheck host s e) : Invariant host (step host s e) where
  coherent := coherent_step s e inv.coherent
  exclusive := fun k => (inv.exclusive k).step (step_keyStep inv.coherent e k)
    (orderly_of_noOpenCheck inv.coherent cond k)

theorem invariant_run {events : List Event}
    (orderly : Along (step host) (NoOpenCheck host) State.initial events) :
    Invariant host (run (Processor.step host) State.initial events) :=
  orderly.invariant Invariant.step (invariant_initial host)

variable (coherent : Coherent host call) (key : call.eventKey? host = some k)

include coherent key

/-- A returned call of key `k` is a duplicate unless it wrote. -/
theorem result?_of_attempt_taken (taken : call.attempt = .taken ())
    (returned : call.result?.isSome = true) : call.result? = some (.duplicate k) := by
  obtain ⟨event, valid, rfl⟩ := eventKey?_eq_some_iff.mp key
  obtain ⟨payload, phase⟩ := call
  cases phase with
  | checking found | saving stored => simp [Call.result?] at returned
  | accepted stored => simp [Call.attempt] at taken
  | duplicate eventKey =>
    obtain ⟨event', valid', rfl⟩ := coherent
    have : event = event' := Except.ok.inj (valid.symm.trans valid')
    rw [this]
    rfl
  | invalid reason => cases valid.symm.trans coherent

theorem result?_of_attempt_wrote {stored : PersistedContractEvent} (wrote : call.attempt = .wrote stored)
    (returned : call.result?.isSome = true) :
    call.result? = some (.accepted k) ∧ some stored.toContractEvent = call.event? host := by
  obtain ⟨event, valid, rfl⟩ := eventKey?_eq_some_iff.mp key
  obtain ⟨payload, phase⟩ := call
  cases phase with
  | checking found => cases found <;> simp [Call.attempt] at wrote
  | saving own => simp [Call.result?] at returned
  | accepted own =>
    obtain ⟨event', now, valid', rfl⟩ := coherent
    have same : event = event' := Except.ok.inj (valid.symm.trans valid')
    have own : persisted event' now = stored := by simpa [Call.attempt] using wrote
    subst same own
    refine ⟨rfl, ?_⟩
    rw [Call.event?, valid]
    rfl
  | duplicate eventKey | invalid reason => simp [Call.attempt] at wrote

omit coherent key

theorem effectivelyOnce_of_exclusive (coherent : ∀ call ∈ s.calls, Coherent host call)
    (exclusive : Exclusive (fun _ => ()) none (s.repository.get? k) (attempts host s k)) :
    EffectivelyOnce host s k := by
  intro some_call returned
  rw [attempts_eq_map] at exclusive
  have keyed : ∀ call ∈ callsOf host s k, Coherent host call ∧ call.eventKey? host = some k := by
    intro call mem
    obtain ⟨mem, key⟩ := List.mem_filter.mp mem
    exact ⟨coherent call mem, of_decide_eq_true key⟩
  have decided : ∀ call ∈ callsOf host s k, call.attempt ≠ .free := by
    intro call mem free
    simpa [Call.result?, phase_of_attempt_free free] using returned call mem
  obtain ⟨first, listed⟩ := List.exists_mem_of_ne_nil _ some_call
  obtain ⟨value, stored, written, all⟩ := exclusive.exists_wrote (List.mem_map_of_mem listed)
    (decided first listed)
  have accepted : ∀ call ∈ callsOf host s k, call.attempt = .wrote value → _ := fun call mem wrote =>
    result?_of_attempt_wrote (keyed call mem).1 (keyed call mem).2 wrote (returned call mem)
  have duplicate : ∀ call ∈ callsOf host s k, call.attempt = .taken () → _ := fun call mem taken =>
    result?_of_attempt_taken (keyed call mem).1 (keyed call mem).2 taken (returned call mem)
  rw [stored]
  refine ⟨le_antisymm ?_ ?_, fun call mem => ?_⟩
  · refine le_trans ?_ exclusive.contenders_le_one
    rw [List.countP_map]
    refine List.countP_mono_left fun call mem chosen => ?_
    rcases all _ (List.mem_map_of_mem mem) with wrote | taken
    · simp [wrote, Attempt.contends]
    · cases (duplicate call mem taken).symm.trans (of_decide_eq_true chosen)
  · obtain ⟨call, mem, wrote⟩ := List.mem_map.mp written
    exact List.countP_pos_iff.mpr ⟨call, mem, decide_eq_true (accepted call mem wrote).1⟩
  · exact (all _ (List.mem_map_of_mem mem)).symm.imp (duplicate call mem) (accepted call mem)

/-! ### Every call returns -/

theorem proceed_of_returned {now : String} (repository : EventRepository) (call : Call)
    (returned : call.result?.isSome = true) : (proceed host now repository call).2 = call := by
  obtain ⟨payload, phase⟩ := call
  cases phase with
  | checking | saving => simp [Call.result?] at returned
  | _ => rfl

theorem returned_of_proceed_twice {now : String} (r r' : EventRepository) (call : Call)
    (coherent : Coherent host call) :
    (proceed host now r' (proceed host now r call).2).2.result?.isSome = true := by
  obtain ⟨payload, phase⟩ := call
  cases phase with
  | checking found =>
    obtain ⟨event, valid⟩ := coherent
    cases found <;> simp [proceed, valid, Call.result?]
  | _ => simp [proceed, Call.result?]

theorem returned_of_settle (coherent : ∀ call ∈ s.calls, Coherent host call) :
    ∀ call ∈ (run (step host) s (settleEvents (.resume · now) s.calls.length)).calls,
      call.result?.isSome = true :=
  done_of_settleEvents (Coherent host) (coherent_proceed now) proceed_of_returned
    returned_of_proceed_twice State.view (Event.resume · now) (fun _ _ => rfl) coherent

/-! ### A call that nothing interrupts -/

/-- What a rejected promise carries: an `Error` with its message, or some other value. -/
inductive Thrown where
  | error (message : String)
  | other
  deriving DecidableEq

/-- `ingest` run to its end over a repository whose `saveEvent` fails as
`failure` says, if it is called. -/
def ingest (host : Host) (repository : EventRepository) (payload : Json) (now : String)
    (failure : Option Thrown) : EventRepository × Except Thrown IngestResult :=
  match validateContractEventPayload host payload with
  | .error reason => (repository, .ok (.invalid reason))
  | .ok event =>
    if hasEventKey repository (buildEventKey event) then
      (repository, .ok (.duplicate (buildEventKey event)))
    else match failure with
      | some thrown => (repository, .error thrown)
      | none => (saveEvent repository (persisted event now), .ok (.accepted (buildEventKey event)))

theorem ingest_of_invalid {reason : String}
    (invalid : validateContractEventPayload host payload = .error reason)
    (repository : EventRepository) (now : String) (failure : Option Thrown) :
    ingest host repository payload now failure = (repository, .ok (.invalid reason)) := by
  rw [ingest, invalid]

variable {event : ContractEvent} (valid : validateContractEventPayload host payload = .ok event)

include valid

theorem ingest_of_stored
    (stored : hasEventKey repository (buildEventKey event) = true) (now : String)
    (failure : Option Thrown) :
    ingest host repository payload now failure =
      (repository, .ok (.duplicate (buildEventKey event))) := by
  simp [ingest, valid, stored]

theorem ingest_of_failure
    (fresh : ¬ hasEventKey repository (buildEventKey event) = true) (now : String)
    (thrown : Thrown) :
    ingest host repository payload now (some thrown) = (repository, .error thrown) := by
  simp [ingest, valid, if_neg fresh]

theorem ingest_of_save
    (fresh : ¬ hasEventKey repository (buildEventKey event) = true) (now : String) :
    ingest host repository payload now none =
      (saveEvent repository (persisted event now), .ok (.accepted (buildEventKey event))) := by
  simp [ingest, valid, if_neg fresh]

omit valid

variable (host repository payload) in
/-- A call resumed at once, with no other call in between, does what `ingest` says. -/
theorem run_alone :
    let s := run (step host) ⟨repository, []⟩ [.ingest payload, .resume 0 now, .resume 0 now]
    s.repository = (ingest host repository payload now none).1 ∧
    s.calls.map (fun call => call.result?.map Except.ok) =
      [some (ingest host repository payload now none).2] := by
  cases valid : validateContractEventPayload host payload with
  | error reason => simp [run, step, begin, resumeAt, State.view, proceed, ingest, valid, Call.result?]
  | ok event =>
    cases stored : hasEventKey repository (buildEventKey event) <;>
      simp [run, step, begin, resumeAt, State.view, proceed, ingest, valid, stored, Call.result?,
        persisted]

/-! ### The main result -/

/-- In every run in which no call checks a free key while another call for that
key has yet to save, each key is ingested effectively once; and the calls still
open return when they are resumed. -/
theorem ingest_effectively_once (host : Host) (events : List Event)
    (orderly : Along (step host) (NoOpenCheck host) State.initial events) :
    let s := run (step host) State.initial events
    (∀ k, EffectivelyOnce host s k) ∧
    ∀ now, ∀ call ∈ (run (step host) s (settleEvents (.resume · now) s.calls.length)).calls,
      call.result?.isSome = true := by
  intro s
  have inv := invariant_run orderly
  exact ⟨fun k => effectivelyOnce_of_exclusive inv.coherent (inv.exclusive k),
    fun now => returned_of_settle now inv.coherent⟩

theorem ingest_effectively_once_twice :
    Along (step lenientHost) (NoOpenCheck lenientHost) State.initial
      [.ingest (createdPayload "c1" "e1" 5), .resume 0 "t0", .ingest (createdPayload "c1" "e1" 5),
        .resume 0 "t1", .resume 1 "t2"] ∧
    EffectivelyOnce lenientHost (run (step lenientHost) State.initial
      [.ingest (createdPayload "c1" "e1" 5), .resume 0 "t0", .ingest (createdPayload "c1" "e1" 5),
        .resume 0 "t1", .resume 1 "t2"]) "c1:e1:5" :=
  have orderly : Along (step lenientHost) (NoOpenCheck lenientHost) State.initial
      [.ingest (createdPayload "c1" "e1" 5), .resume 0 "t0", .ingest (createdPayload "c1" "e1" 5),
        .resume 0 "t1", .resume 1 "t2"] := by decide +kernel
  ⟨orderly, (ingest_effectively_once lenientHost _ orderly).1 "c1:e1:5"⟩

/-- Two calls that both check before either saves are both accepted. -/
theorem ingest_twice_accepted :
    ¬ EffectivelyOnce lenientHost (run (step lenientHost) State.initial
      [.ingest (createdPayload "c1" "e1" 5), .ingest (createdPayload "c1" "e1" 5),
        .resume 0 "t0", .resume 1 "t1", .resume 0 "t2", .resume 1 "t3"]) "c1:e1:5" := by
  decide +kernel

end Processor

end TalentTrust.Events
