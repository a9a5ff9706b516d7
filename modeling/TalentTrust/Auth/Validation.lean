import TalentTrust.Auth.ApiKeys

/-!
Validations of API keys return.

A validation goes through at most five database operations with at most four
waits each. `waits` counts what is still before it; every turn of its own
lowers the count or ends the call (`advances_turn`), so that it has returned
after twenty turns, whatever other calls do to the store in between.
-/

namespace TalentTrust.Auth.ApiKeys

open TalentTrust.Lib

variable {p : Platform} {s : State}

/-- The key and the flag of a validation. -/
def Task.validation : Task → Option (String × Bool)
  | .finding apiKey barred | .scanning apiKey barred => some (apiKey, barred)
  | .backfilling apiKey barred _ | .touching apiKey barred _ | .expiring apiKey barred _ =>
    some (apiKey, barred)
  | _ => none

/-- How many waits a validation has before it at most. -/
def waits : Task → Phase → Nat
  | task, phase =>
    4 * (match task with
      | .finding _ _ => 4
      | .scanning _ _ => 3
      | .backfilling _ _ _ => 2
      | .touching _ _ _ => 1
      | _ => 0) +
    (match phase with
      | .loading => 3
      | .ready _ => 2
      | .saving _ => 1
      | .writing _ _ => 0)

/-- The two lookups write nothing. -/
def Call.Phased : Call → Prop
  | .running (.finding _ _) phase | .running (.scanning _ _) phase =>
    match phase with
    | .loading | .ready _ => True
    | .saving _ | .writing _ _ => False
  | _ => True

theorem phased_begin (s : State) (task : Task) : (s.begin task).Phased := by
  unfold State.begin
  cases s.db <;> cases task <;> trivial

def State.Phased (s : State) : Prop := ∀ c ∈ s.calls, c.Phased

theorem calls_checkExpiry (s : State) (i : Nat) (apiKey : String) (barred : Bool) (r : ApiKey) :
    ∃ c, (checkExpiry p s i apiKey barred r).calls = s.calls.set i c ∧ c.Phased := by
  unfold ApiKeys.checkExpiry
  split
  · exact ⟨_, rfl, phased_begin s _⟩
  · exact ⟨_, rfl, trivial⟩

theorem calls_perform (s : State) (i d : Nat) (task : Task) :
    ∃ c, (perform p s i d task).calls = s.calls.set i c ∧ c.Phased := by
  cases task with
  | finding apiKey barred =>
    simp only [ApiKeys.perform]
    split
    · exact ⟨_, rfl, phased_begin s _⟩
    · split
      · split
        · exact ⟨_, rfl, phased_begin s _⟩
        · exact ⟨_, rfl, phased_begin s _⟩
      · exact ⟨_, rfl, trivial⟩
  | backfilling apiKey barred r =>
    simp only [ApiKeys.perform]
    split
    · exact ⟨_, rfl, phased_begin s _⟩
    · exact ⟨_, rfl, trivial⟩
  | touching apiKey barred r =>
    simp only [ApiKeys.perform]
    split
    · exact calls_checkExpiry s i apiKey barred r
    · exact ⟨_, rfl, trivial⟩
  | scanning apiKey barred | rotateReading id | deactivateReading id =>
    simp only [ApiKeys.perform]
    split
    · exact ⟨_, rfl, trivial⟩
    · exact ⟨_, rfl, phased_begin s _⟩
  | creating request indexed record => exact ⟨_, rfl, trivial⟩
  | expiring apiKey barred r | rotating e draws =>
    simp only [ApiKeys.perform]
    split <;> exact ⟨_, rfl, trivial⟩
  | deactivating e draw =>
    simp only [ApiKeys.perform]
    split <;> exact ⟨_, rfl, trivial⟩

theorem State.Phased.finish (phased : s.Phased) (i d : Nat) (task : Task) :
    (finish p s i d task).Phased := by
  cases task with
  | backfilling apiKey barred r => exact forall_mem_set phased (phased_begin s _) i
  | touching apiKey barred r =>
    obtain ⟨c, calls, fine⟩ := calls_checkExpiry (p := p) s i apiKey barred r
    simp only [ApiKeys.finish, State.Phased]
    rw [calls]
    exact forall_mem_set phased fine i
  | expiring apiKey barred r => exact forall_mem_set phased (by trivial) i
  | rotating e draws => cases draws <;> first | exact phased | exact forall_mem_set phased (by trivial) i
  | deactivating e draw => cases draw <;> first | exact phased | exact forall_mem_set phased (by trivial) i
  | creating request indexed record =>
    cases record <;> first | exact phased | exact forall_mem_set phased (by trivial) i
  | finding apiKey barred | scanning apiKey barred => exact phased
  | rotateReading id | deactivateReading id => exact phased

theorem State.Phased.turn (phased : s.Phased) (i : Nat) : (turn p s i).Phased := by
  unfold ApiKeys.turn
  cases found : s.calls[i]? with
  | none => exact phased
  | some c =>
    have fine := phased c (List.mem_of_getElem? found)
    cases c with
    | returned result => exact phased
    | running task phase =>
      cases phase with
      | loading | saving d => exact forall_mem_set phased (by cases task <;> trivial) i
      | ready d =>
        obtain ⟨c, calls, fine⟩ := calls_perform (p := p) s i d task
        simp only [State.Phased]
        rw [calls]
        exact forall_mem_set phased fine i
      | writing d snapshot =>
        have written : ({ s with file := snapshot.map ApiKey.toJson } : State).Phased := phased
        exact written.finish i d task

theorem State.Phased.step (phased : s.Phased) (e : Event) : (step p s e).Phased := by
  cases e with
  | tick ms => exact phased
  | create request | createLegacy request | rotate id | deactivate id =>
    exact forall_mem_concat phased (phased_begin s _)
  | validate apiKey =>
    simp only [ApiKeys.step, ApiKeys.validateApiKey]
    split
    · exact forall_mem_concat phased (by trivial)
    · exact forall_mem_concat phased (phased_begin _ _)
  | turn i => exact phased.turn i
  | restart torn => exact fun _ mem => absurd mem List.not_mem_nil

def Answered (s : State) (i : Nat) (apiKey : String) (barred : Bool) : Prop :=
  ∃ info, s.calls[i]? = some (.returned (.validated info)) ∧ ⟨apiKey, barred, info⟩ ∈ s.answers

/-- The validation at `i` has returned, or goes on with fewer than `n` waits before it. -/
def Advances (n : Nat) (s : State) (i : Nat) (apiKey : String) (barred : Bool) : Prop :=
  Answered s i apiKey barred ∨ ∃ task phase, s.calls[i]? = some (.running task phase) ∧
    task.validation = some (apiKey, barred) ∧ waits task phase < n

section Progress

variable {i d n : Nat} {apiKey : String} {barred : Bool} {task : Task} (bound : i < s.calls.length)

include bound

theorem answered_answer (info : Option ApiKeyInfo) :
    Answered (s.answer i apiKey barred info) i apiKey barred :=
  ⟨info, List.getElem?_set_self bound, List.mem_cons_self⟩

variable (validation : task.validation = some (apiKey, barred))

include validation

theorem advances_begin (fewer : waits task .loading < n) :
    Advances n (s.setCall i (s.begin task)) i apiKey barred := by
  refine .inr ⟨task, _, List.getElem?_set_self bound, validation, lt_of_le_of_lt ?_ fewer⟩
  cases s.db <;> simp [waits]

theorem advances_change {store : Store} (fewer : waits task (.saving d) < n) :
    Advances n (s.change i d store task) i apiKey barred :=
  .inr ⟨task, .saving d, List.getElem?_set_self bound, validation, fewer⟩

omit validation

theorem advances_checkExpiry (r : ApiKey) (enough : 3 < n) :
    Advances n (checkExpiry p s i apiKey barred r) i apiKey barred := by
  unfold ApiKeys.checkExpiry
  split
  · exact advances_begin bound rfl enough
  · exact .inl (answered_answer bound _)

theorem advances_perform (validation : task.validation = some (apiKey, barred)) :
    Advances (waits task (.ready d)) (perform p s i d task) i apiKey barred := by
  cases task with
  | finding k b =>
    cases validation
    simp only [ApiKeys.perform]
    split
    · exact advances_begin bound rfl (by simp [waits])
    · split
      · split
        · exact advances_begin bound rfl (by simp [waits])
        · exact advances_begin bound rfl (by simp [waits])
      · exact .inl (answered_answer bound _)
  | scanning k b =>
    cases validation
    simp only [ApiKeys.perform]
    split
    · exact .inl (answered_answer bound _)
    · exact advances_begin bound rfl (by simp [waits])
  | backfilling k b r =>
    cases validation
    simp only [ApiKeys.perform]
    split
    · exact advances_begin bound rfl (by simp [waits])
    · exact advances_change bound rfl (by simp [waits])
  | touching k b r =>
    cases validation
    simp only [ApiKeys.perform]
    split
    · exact advances_checkExpiry bound r (by simp [waits])
    · exact advances_change bound rfl (by simp [waits])
  | expiring k b r =>
    cases validation
    simp only [ApiKeys.perform]
    split
    · exact .inl (answered_answer bound _)
    · exact advances_change bound rfl (by simp [waits])
  | _ => cases validation

omit bound

theorem advances_turn {phase : Phase} (phased : s.Phased)
    (found : s.calls[i]? = some (.running task phase))
    (validation : task.validation = some (apiKey, barred)) :
    Advances (waits task phase) (turn p s i) i apiKey barred := by
  have bound := (List.getElem?_eq_some_iff.mp found).1
  have fine := phased _ (List.mem_of_getElem? found)
  unfold ApiKeys.turn
  rw [found]
  cases phase with
  | loading =>
    exact .inr ⟨task, .ready s.stores.length, List.getElem?_set_self bound, validation, by simp [waits]⟩
  | ready d => exact advances_perform bound validation
  | saving d =>
    exact .inr ⟨task, _, List.getElem?_set_self bound, validation, by simp [waits]⟩
  | writing d snapshot =>
    cases task with
    | finding k b | scanning k b => exact fine.elim
    | backfilling k b r =>
      cases validation
      exact advances_begin bound rfl (by simp [waits])
    | touching k b r =>
      cases validation
      exact advances_checkExpiry (s := { s with file := snapshot.map ApiKey.toJson })
        (n := waits (.touching apiKey barred r) (.writing d snapshot)) bound r (by simp [waits])
    | expiring k b r =>
      cases validation
      exact .inl (answered_answer bound _)
    | _ => cases validation

theorem Answered.turn (answered : Answered s i apiKey barred) : turn p s i = s := by
  obtain ⟨info, found, -⟩ := answered
  unfold ApiKeys.turn
  rw [found]

theorem Answered.turns (answered : Answered s i apiKey barred) : ∀ n,
    run (ApiKeys.step p) s (List.replicate n (.turn i)) = s
  | 0 => rfl
  | n + 1 => by
      rw [List.replicate_succ, run_cons]
      have same : ApiKeys.step p s (.turn i) = s := answered.turn
      rw [same]
      exact answered.turns n

theorem answered_turns : ∀ (n : Nat) {s : State} {task : Task} {phase : Phase}, s.Phased →
    s.calls[i]? = some (.running task phase) → task.validation = some (apiKey, barred) →
    waits task phase < n →
    Answered (run (ApiKeys.step p) s (List.replicate n (.turn i))) i apiKey barred
  | 0, _, _, _, _, _, _, enough => absurd enough (Nat.not_lt_zero _)
  | n + 1, s, task, phase, phased, found, validation, enough => by
      rw [List.replicate_succ, run_cons]
      rcases advances_turn (p := p) phased found validation with answered | ⟨task', phase', found', same, fewer⟩
      · exact (answered.turns (p := p) n).symm ▸ answered
      · exact answered_turns n (phased.turn i) found' same (by omega)

theorem waits_lt (task : Task) (phase : Phase) : waits task phase < 20 := by
  cases task <;> cases phase <;> simp [waits]

end Progress

end TalentTrust.Auth.ApiKeys
