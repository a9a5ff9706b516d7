import TalentTrust.Disputes.Service

/-!
What every run of the dispute service keeps.

What an operation can do to one dispute is said once (`change_apply`). From it
follow what a status can become, that a resolved dispute stays resolved until it
is purged, and that an update leaves deleted disputes alone. A batch performs the
updates of its items one after another, with the outcomes that `updateDispute`
has at those moments (`Batched`).
-/

namespace TalentTrust.Disputes

open TalentTrust.Lib TalentTrust.Retention TalentTrust.SoftDelete

/-! ### One operation, one dispute -/

/-- What an operation can do to the record of an id. -/
inductive Change (id : String) : Operation → Option DisputeRecord → Option DisputeRecord → Prop where
  | same (operation : Operation) (record : Option DisputeRecord) : Change id operation record record
  | created (input : CreateDisputeInput) (now : Date) (record : Option DisputeRecord) :
      Change id (.createDispute id input now) record (some (newDispute id input now))
  | deleted {dispute : DisputeRecord} (now : Date) (active : dispute.deletedAt = none) :
      Change id (.softDeleteDispute id now) (some dispute)
        (some { dispute with deletedAt := some now, updatedAt := now })
  | restored {dispute : DisputeRecord} (now : Date) (retentionDays : Int)
      (marked : dispute.deletedAt ≠ none) :
      Change id (.restoreDispute id now retentionDays) (some dispute)
        (some { dispute with deletedAt := none, updatedAt := now })
  | purged {dispute : DisputeRecord} {now : Date} {retentionDays : Int}
      (late : expired now retentionDays dispute = true) :
      Change id (.purgeExpiredDisputes now retentionDays) (some dispute) none
  | updated {dispute : DisputeRecord} {updates : UpdateDisputePayload} (now : Date)
      (active : dispute.deletedAt = none) (valid : checkStatus dispute updates = .ok ()) :
      Change id (.updateDispute id updates now) (some dispute) (some (dispute.updated updates now))

variable {id : String} {dispute : DisputeRecord}

theorem getDisputeById_of_ok {store : DisputeStore}
    (found : getDisputeById store id = .ok dispute) :
    store.get? id = some dispute ∧ dispute.deletedAt = none := by
  unfold getDisputeById at found
  split at found
  · cases found
  · rename_i held there
    split at found
    · cases found
    · rename_i active
      cases found
      exact ⟨there, by simpa using active⟩

variable (store : DisputeStore) (uuids : Uuids)

/-- `updateDispute` fails and writes nothing, or replaces an active record. -/
theorem updateDispute_cases (id : String) (updates : UpdateDisputePayload) (now : Date) :
    (∃ e, updateDispute store id updates now = (⟨.error e, false⟩, store)) ∨
    ∃ dispute hook, store.get? id = some dispute ∧ dispute.deletedAt = none ∧
      checkStatus dispute updates = .ok () ∧
      updateDispute store id updates now =
        (⟨.ok (dispute.updated updates now), hook⟩, store.set id (dispute.updated updates now)) := by
  unfold updateDispute
  split
  · exact .inl ⟨_, rfl⟩
  · rename_i dispute found
    obtain ⟨held, active⟩ := getDisputeById_of_ok found
    split
    · exact .inl ⟨_, rfl⟩
    · rename_i valid
      exact .inr ⟨dispute, _, held, active, valid, rfl⟩

theorem softDeleteDispute_cases (id : String) (now : Date) :
    (softDeleteDispute store id now).2 = store ∨
    ∃ dispute, store.get? id = some dispute ∧ dispute.deletedAt = none ∧
      (softDeleteDispute store id now).2 =
        store.set id { dispute with deletedAt := some now, updatedAt := now } := by
  unfold softDeleteDispute
  split
  · exact .inl rfl
  · rename_i dispute held
    split
    · exact .inl rfl
    · rename_i active
      exact .inr ⟨dispute, held, by simpa using active, rfl⟩

theorem restoreDispute_cases (id : String) (now : Date) (retentionDays : Int) :
    (restoreDispute store id now retentionDays).2 = store ∨
    ∃ dispute, store.get? id = some dispute ∧ dispute.deletedAt ≠ none ∧
      (restoreDispute store id now retentionDays).2 =
        store.set id { dispute with deletedAt := none, updatedAt := now } := by
  unfold restoreDispute
  split
  · exact .inl rfl
  · rename_i dispute held
    split
    · exact .inl rfl
    · rename_i deletedAt marked
      split
      · exact .inr ⟨dispute, held, by simp [marked], rfl⟩
      · exact .inl rfl

variable {updates : UpdateDisputePayload}

theorem updateDispute_of_error {store : DisputeStore} {now : Date} {e : DisputeError}
    (failed : (updateDispute store id updates now).1.outcome = .error e) :
    (updateDispute store id updates now).2 = store := by
  rcases updateDispute_cases store id updates now with ⟨e', done⟩ | ⟨dispute, hook, -, -, -, done⟩
  · rw [done]
  · rw [done] at failed
    cases failed

variable {operation : Operation} {record : DisputeRecord}

theorem change_set {store : DisputeStore} {key : String} {before : Option DisputeRecord} (held : store.get? key = before)
    (here : Change key operation before (some record)) (id : String) :
    Change id operation (store.get? id) ((store.set key record).get? id) := by
  by_cases same : id = key
  · subst same
    rwa [OrderedMap.get?_set_self, held]
  · rw [OrderedMap.get?_set_of_ne _ _ same]
    exact .same _ _

theorem change_apply (operation : Operation) (id : String) :
    Change id operation (store.get? id) ((operation.apply store).get? id) := by
  cases operation with
  | createDispute key input now => exact change_set rfl (.created input now _) id
  | softDeleteDispute key now =>
    rw [Operation.apply]
    rcases softDeleteDispute_cases store key now with done | ⟨dispute, held, active, done⟩
    · rw [done]
      exact .same _ _
    · rw [done]
      exact change_set held (.deleted now active) id
  | restoreDispute key now retentionDays =>
    rw [Operation.apply]
    rcases restoreDispute_cases store key now retentionDays with
      done | ⟨dispute, held, marked, done⟩
    · rw [done]
      exact .same _ _
    · rw [done]
      exact change_set held (.restored now retentionDays marked) id
  | purgeExpiredDisputes now retentionDays =>
    rw [Operation.apply, purgeExpiredDisputes, OrderedMap.get?_filter]
    cases store.get? id with
    | none => exact .same _ _
    | some dispute =>
      by_cases late : expired now retentionDays dispute = true
      · rw [Option.filter_some_neg (by simpa using late)]
        exact .purged late
      · rw [Option.filter_some_pos (by simpa using late)]
        exact .same _ _
  | updateDispute key updates now =>
    rw [Operation.apply]
    rcases updateDispute_cases store key updates now with
      ⟨e, done⟩ | ⟨dispute, hook, held, active, valid, done⟩
    · rw [done]
      exact .same _ _
    · rw [done]
      exact change_set held (.updated now active valid) id

/-! ### Statuses -/

/-- A status stays, or goes along `VALID_TRANSITIONS`. -/
def Follows (before after : DisputeStatus) : Prop :=
  after = before ∨ after ∈ validTransitions before

theorem follows_of_checkStatus (now : Date) (valid : checkStatus dispute updates = .ok ()) :
    Follows dispute.status (dispute.updated updates now).status := by
  unfold checkStatus validateTransition at valid
  unfold Follows DisputeRecord.updated
  cases given : updates.status with
  | none => simp
  | some status =>
    simp only [given] at valid
    split at valid
    · rename_i same
      exact .inl same.symm
    · split at valid
      · rename_i allowed
        exact .inr allowed
      · cases valid

variable {before : DisputeRecord}

/-- An operation other than a creation under the id takes a status along `VALID_TRANSITIONS`. -/
theorem Change.follows {after : DisputeRecord}
    (change : Change id operation (some before) (some after))
    (old : ∀ input now, operation ≠ .createDispute id input now) :
    Follows before.status after.status := by
  cases change with
  | same => exact .inl rfl
  | created input now => exact absurd rfl (old input now)
  | deleted | restored => exact .inl rfl
  | updated now active valid => exact follows_of_checkStatus now valid

theorem Change.purge_of_none (change : Change id operation (some before) none) :
    ∃ now retentionDays, operation = .purgeExpiredDisputes now retentionDays := by
  cases change with
  | purged late => exact ⟨_, _, rfl⟩

theorem Change.eq_of_deleted {key : String} {now : Date} {after : Option DisputeRecord}
    (change : Change id (.updateDispute key updates now) (some before) after)
    (marked : before.deletedAt ≠ none) : after = some before := by
  cases change with
  | same => rfl
  | updated now active valid => exact absurd active marked

/-! ### Histories -/

/-- The store that a history leads to. -/
def replay (history : List Entry) : DisputeStore :=
  history.foldl (fun store entry => entry.operation.apply store) store

theorem replay_append (first second : List Entry) :
    replay store (first ++ second) = replay (replay store first) second :=
  List.foldl_append

def Operation.update? : Operation → Option (String × UpdateDisputePayload)
  | .updateDispute id updates _ => some (id, updates)
  | _ => none

/-- What `updateDispute` returns or throws on the store. -/
def Operation.outcome? :
    Operation → Option (Except DisputeError DisputeRecord)
  | .updateDispute id updates now => some (Disputes.updateDispute store id updates now).1.outcome
  | _ => none

/-- The updates that a call has made. -/
def updatesBy (i : Nat) (history : List Entry) : List (String × UpdateDisputePayload) :=
  history.filterMap fun entry => if entry.caller = some i then entry.operation.update? else none

/-- What `updateDispute` has answered to a call, each time on the store of that moment. -/
def outcomesBy (i : Nat) :
    DisputeStore → List Entry → List (Except DisputeError DisputeRecord)
  | _, [] => []
  | store, entry :: rest =>
    (if entry.caller = some i then (entry.operation.outcome? store).toList else []) ++
      outcomesBy i (entry.operation.apply store) rest

theorem outcomesBy_append (i : Nat) (store : DisputeStore) (first second : List Entry) :
    outcomesBy i store (first ++ second) =
      outcomesBy i store first ++ outcomesBy i (replay store first) second := by
  induction first generalizing store with
  | nil => rfl
  | cons entry rest ih =>
    rw [List.cons_append, outcomesBy, ih, outcomesBy, List.append_assoc]
    rfl

variable {history : List Entry} {i : Nat}

theorem updatesBy_append_of_ne {entry : Entry} (other : entry.caller ≠ some i) :
    updatesBy i (history ++ [entry]) = updatesBy i history := by
  simp [updatesBy, other]

theorem outcomesBy_append_of_ne {entry : Entry} (other : entry.caller ≠ some i) :
    outcomesBy i store (history ++ [entry]) = outcomesBy i store history := by
  rw [outcomesBy_append, outcomesBy, if_neg other, outcomesBy, List.append_nil, List.append_nil]

theorem nothing_by (i : Nat) (history : List Entry) (fresh : ∀ entry ∈ history, entry.caller ≠ some i)
    (store : DisputeStore) : updatesBy i history = [] ∧ outcomesBy i store history = [] := by
  induction history generalizing store with
  | nil => exact ⟨rfl, rfl⟩
  | cons entry rest ih =>
    obtain ⟨here, later⟩ := List.forall_mem_cons.mp fresh
    obtain ⟨updates, outcomes⟩ := ih later (entry.operation.apply store)
    refine ⟨?_, ?_⟩
    · simpa [updatesBy, here] using updates
    · rw [outcomesBy, if_neg here, outcomes, List.append_nil]

/-! ### Batches as updates one after another -/

variable (history i) in
/-- A batch has made the updates of its first operations, in order, and its results are what
`updateDispute` has answered, up to the one it still awaits. -/
structure Applied (call : BatchCall) : Prop where
  updates : updatesBy i history =
    (call.operations.take (outcomesBy i .empty history).length).map fun operation =>
      (operation.id, operation.payload)
  within : (outcomesBy i .empty history).length ≤ call.operations.length
  results : ∃ settled,
    outcomesBy i .empty history = settled ++ call.current.toList.map Updating.outcome ∧
      call.results = settled.mapIdx batchResult

variable (history i) in
/-- A batch that has returned has done so for all its operations. -/
structure Batched (call : BatchCall) : Prop
    extends Applied history i call where
  returned : call.current = none → call.results.length = call.operations.length

variable {call : BatchCall}

theorem Batched.append_of_ne {performed : Option Entry} (h : Batched history i call)
    (other : ∀ entry ∈ performed, entry.caller ≠ some i) :
    Batched (history ++ performed.toList) i call := by
  cases performed with
  | none => simpa using h
  | some entry =>
    have ne := other entry rfl
    obtain ⟨⟨updates, within, results⟩, returned⟩ := h
    refine ⟨⟨?_, ?_, ?_⟩, returned⟩
    · rwa [Option.toList_some, updatesBy_append_of_ne ne, outcomesBy_append_of_ne _ ne]
    · rwa [Option.toList_some, outcomesBy_append_of_ne _ ne]
    · rwa [Option.toList_some, outcomesBy_append_of_ne _ ne]

/-- The entry of the next item of a batch. -/
def BatchCall.entry? (i : Nat) (now : Date) (call : BatchCall) : Option Entry :=
  (call.nextOperation now).map fun operation => ⟨some i, operation⟩

/-- A batch goes on with its next item, or returns when there is none. -/
theorem Applied.next (h : Applied history i call) (idle : call.current = none) (now : Date) :
    Batched (history ++ (call.entry? i now).toList) i
      (call.next (replay .empty history) now).2 := by
  obtain ⟨settled, outcomes, results⟩ := h.results
  rw [idle, Option.toList_none, List.map_nil, List.append_nil] at outcomes
  have count : call.results.length = (outcomesBy i .empty history).length := by
    rw [results, List.length_mapIdx, outcomes]
  unfold BatchCall.entry? BatchCall.nextOperation BatchCall.next
  cases item : call.operations[call.results.length]? with
  | none =>
    have done := List.getElem?_eq_none_iff.mp item
    have within := h.within
    simp only [Option.map_none, Option.toList_none, List.append_nil]
    refine ⟨⟨h.updates, within, settled, ?_, results⟩, fun _ => ?_⟩
    · simpa using outcomes
    · simp only
      omega
  | some operation =>
    have bound := (List.getElem?_eq_some_iff.mp item).1
    have update : updatesBy i (history ++ [⟨some i, .updateDispute operation.id operation.payload now⟩]) =
        updatesBy i history ++ [(operation.id, operation.payload)] := by
      simp [updatesBy, Operation.update?]
    have outcome : outcomesBy i .empty
        (history ++ [⟨some i, .updateDispute operation.id operation.payload now⟩]) =
        outcomesBy i .empty history ++
          [(updateDispute (replay .empty history) operation.id operation.payload now).1.outcome] := by
      rw [outcomesBy_append]
      simp [outcomesBy, Operation.outcome?]
    simp only [Option.map_some, Option.toList_some]
    refine ⟨⟨?_, ?_, settled, ?_, results⟩, nofun⟩
    · rw [update, outcome, List.length_append, List.length_singleton, h.updates,
        List.take_add_one, ← count, item, Option.toList_some, List.map_append, List.map_singleton]
    · rw [outcome, List.length_append, ← count]
      exact bound
    · rw [outcome, outcomes]
      rfl

theorem Batched.turn (h : Batched history i call) (now : Date) :
    Batched (history ++ (((Call.batch call).nextOperation now).map fun operation =>
        (⟨some i, operation⟩ : Entry)).toList) i
      (call.turn (replay .empty history) now).2 := by
  obtain ⟨operations, results, current⟩ := call
  obtain ⟨settled, outcomes, pushed⟩ := h.results
  rcases current with _ | ⟨outcome, _ | _⟩
  · simpa [Call.nextOperation, BatchCall.turn] using h
  · -- The item's promise settles: its result is pushed, and the next item begins.
    have between : Applied history i (BatchCall.push ⟨operations, results, some ⟨outcome, false⟩⟩ outcome) := by
      refine ⟨h.updates, h.within, settled ++ [outcome], ?_, ?_⟩
      · simpa [BatchCall.push] using outcomes
      · simp only at pushed
        simp [BatchCall.push, pushed, List.mapIdx_append]
    exact between.next rfl now
  · -- Only the hook has settled.
    have same : Batched history i ⟨operations, results, some ⟨outcome, false⟩⟩ :=
      ⟨⟨h.updates, h.within, settled, outcomes, pushed⟩, nofun⟩
    simpa [Call.nextOperation, BatchCall.turn] using same

/-! ### Runs as histories -/

theorem fst_next (call : BatchCall) (store : DisputeStore) (now : Date) (i : Nat) :
    (call.next store now).1 = replay store (call.entry? i now).toList := by
  unfold BatchCall.next BatchCall.entry? BatchCall.nextOperation
  cases call.operations[call.results.length]? <;> rfl

theorem fst_turn (now : Date) (store : DisputeStore) (call : Call) (i : Nat) :
    (turn now store call).1 = replay store ((call.nextOperation now).map fun operation =>
      (⟨some i, operation⟩ : Entry)).toList := by
  cases call with
  | update updating => rfl
  | batch call =>
    obtain ⟨operations, results, current⟩ := call
    rcases current with _ | ⟨outcome, _ | _⟩
    · rfl
    · exact fst_next _ store now i
    · rfl

theorem store_step (s : State) (e : Event) :
    (step uuids s e).store = replay s.store (performs uuids s e).toList := by
  cases e with
  | processBatch operations now => exact fst_next _ s.store now s.calls.length
  | resume index now =>
    simp only [step, performs]
    cases found : s.calls[index]? with
    | none =>
      rw [resumeAt_of_none found]
      rfl
    | some call =>
      rw [resumeAt_of_some found]
      exact fst_turn now s.store call index
  | _ => rfl

theorem history_step (s : State) (e : Event) :
    (step uuids s e).history = s.history ++ (performs uuids s e).toList := by
  cases e <;> rfl

theorem getElem?_append_singleton {calls : List Call} {c d : Call}
    (found : (calls ++ [c])[i]? = some d) : calls[i]? = some d ∨ (i = calls.length ∧ c = d) := by
  rw [List.getElem?_append] at found
  split at found
  · exact .inl found
  · obtain ⟨small, same⟩ := List.getElem?_eq_some_iff.mp found
    rw [List.length_singleton] at small
    refine .inr ⟨by omega, ?_⟩
    simpa using same

/-- The store is what the history leads to, every batch has made the updates of its items in
order, entries name calls, and ids were drawn. -/
structure Sound (s : State) : Prop where
  replayed : s.store = replay .empty s.history
  batched : ∀ i call, s.calls[i]? = some (.batch call) → Batched s.history i call
  callers : ∀ entry ∈ s.history, ∀ i, entry.caller = some i → i < s.calls.length
  known : ∀ id record, s.store.get? id = some record → ∃ k < s.drawn, uuids.draw k = id

theorem sound_initial : Sound uuids .initial where
  replayed := rfl
  batched := by simp [State.initial]
  callers := by simp [State.initial]
  known := by simp [State.initial]

section Step

variable {uuids : Uuids} {s : State}

theorem Sound.batched_step (h : Sound uuids s) (e : Event) (i : Nat) (call : BatchCall)
    (found : (step uuids s e).calls[i]? = some (.batch call)) :
    Batched (step uuids s e).history i call := by
  rw [history_step]
  -- A call that was there before the event is not the one the event begins.
  have earlier : s.calls[i]? = some (.batch call) → i ≠ s.calls.length := by
    intro there same
    exact absurd (List.getElem?_eq_some_iff.mp there).1 (by omega)
  cases e with
  | createDispute input now
  | softDeleteDispute id now => exact (h.batched i call found).append_of_ne (by simp [performs])
  | restoreDispute id now envValue | purgeExpiredDisputes now envValue =>
    exact (h.batched i call found).append_of_ne (by simp [performs])
  | updateDispute id updates now =>
    rcases getElem?_append_singleton found with there | ⟨-, same⟩
    · exact (h.batched i call there).append_of_ne (by simp [performs, (earlier there).symm])
    · cases same
  | processBatch operations now =>
    rcases getElem?_append_singleton found with there | ⟨rfl, same⟩
    · refine (h.batched i call there).append_of_ne ?_
      simp only [performs, Option.mem_map]
      rintro entry ⟨operation, -, rfl⟩
      simp [(earlier there).symm]
    · cases same
      have none_made := nothing_by s.calls.length s.history
        (fun entry mem caller => absurd (h.callers entry mem _ caller) (by omega)) .empty
      have idle : Applied s.history s.calls.length ⟨operations, [], none⟩ :=
        ⟨by simp [none_made], by simp [none_made], [], by simp [none_made], rfl⟩
      rw [h.replayed]
      exact idle.next rfl now
  | resume index now =>
    cases held : s.calls[index]? with
    | none =>
      have same : (step uuids s (.resume index now)).calls = s.calls := by
        simp only [step]
        rw [resumeAt_of_none held]
      rw [same] at found
      exact (h.batched i call found).append_of_ne (by simp [performs, held])
    | some resumed =>
      have calls : (step uuids s (.resume index now)).calls =
          s.calls.set index (turn now s.store resumed).2 := by
        simp only [step]
        rw [resumeAt_of_some held]
      rw [calls] at found
      by_cases same : index = i
      · subst same
        rw [List.getElem?_set_self (List.getElem?_eq_some_iff.mp held).1] at found
        cases resumed with
        | update updating => cases found
        | batch before =>
          cases found
          simp only [performs, held, Option.bind_some]
          rw [h.replayed]
          exact (h.batched index before held).turn now
      · rw [List.getElem?_set_ne same] at found
        refine (h.batched i call found).append_of_ne ?_
        simp only [performs, Option.mem_map]
        rintro entry ⟨operation, -, rfl⟩
        simp [same]

theorem Sound.callers_step (h : Sound uuids s) (e : Event) (entry : Entry)
    (mem : entry ∈ (step uuids s e).history) (i : Nat) (caller : entry.caller = some i) :
    i < (step uuids s e).calls.length := by
  have grows : s.calls.length ≤ (step uuids s e).calls.length := by
    cases e with
    | resume index now =>
      exact (length_resumeAt (s.store, s.calls) index).ge
    | updateDispute id updates now | processBatch operations now => simp [step]
    | _ => exact Nat.le_refl _
  rw [history_step, List.mem_append, Option.mem_toList] at mem
  rcases mem with mem | mem
  · exact lt_of_lt_of_le (h.callers entry mem i caller) grows
  · cases e with
    | updateDispute id updates now =>
      cases mem
      cases caller
      simp [step]
    | processBatch operations now =>
      obtain ⟨operation, -, rfl⟩ := Option.mem_map.mp mem
      cases caller
      simp [step]
    | resume index now =>
      obtain ⟨operation, made, rfl⟩ := Option.mem_map.mp mem
      cases caller
      obtain ⟨call, held, -⟩ := Option.bind_eq_some_iff.mp made
      exact lt_of_lt_of_le (List.getElem?_eq_some_iff.mp held).1 grows
    | _ =>
      cases mem
      cases caller

variable {now : Date}

theorem update_of_nextOperation {call : Call} (made : call.nextOperation now = some operation) :
    ∃ id updates, operation = .updateDispute id updates now := by
  cases call with
  | update updating => cases made
  | batch call =>
    obtain ⟨operations, results, current⟩ := call
    rcases current with _ | ⟨outcome, _ | _⟩
    · cases made
    · obtain ⟨item, -, rfl⟩ := Option.map_eq_some_iff.mp made
      exact ⟨_, _, rfl⟩
    · cases made

/-- The calls that update disputes, and those of them that go on. -/
def Event.Updates : Event → Prop
  | .updateDispute _ _ _ | .processBatch _ _ | .resume _ _ => True
  | _ => False

variable {e : Event} {entry : Entry}

theorem update_of_performs (updates : e.Updates) (performed : performs uuids s e = some entry) :
    ∃ id updates now, entry.operation = .updateDispute id updates now := by
  cases e with
  | updateDispute id updates now =>
    cases performed
    exact ⟨_, _, _, rfl⟩
  | processBatch operations now =>
    obtain ⟨operation, made, rfl⟩ := Option.map_eq_some_iff.mp performed
    obtain ⟨item, -, rfl⟩ := Option.map_eq_some_iff.mp made
    exact ⟨_, _, _, rfl⟩
  | resume index now =>
    obtain ⟨operation, made, rfl⟩ := Option.map_eq_some_iff.mp performed
    obtain ⟨call, -, next⟩ := Option.bind_eq_some_iff.mp made
    obtain ⟨id, updates, rfl⟩ := update_of_nextOperation next
    exact ⟨_, _, _, rfl⟩
  | _ => exact updates.elim

variable {id : String}

theorem drawn_of_create {input : CreateDisputeInput} (performed : performs uuids s e = some entry)
    (create : entry.operation = .createDispute id input now) :
    uuids.draw s.drawn = id ∧ (step uuids s e).drawn = s.drawn + 1 := by
  by_cases updates : e.Updates
  · obtain ⟨_, _, _, update⟩ := update_of_performs updates performed
    rw [create] at update
    cases update
  · cases e with
    | createDispute input' now' =>
      cases performed
      cases create
      exact ⟨rfl, rfl⟩
    | softDeleteDispute id' now' | restoreDispute id' now' envValue =>
      cases performed
      cases create
    | purgeExpiredDisputes now' envValue =>
      cases performed
      cases create
    | _ => exact absurd trivial updates

theorem purge_of_performs {retentionDays : Int} (performed : performs uuids s e = some entry)
    (purge : entry.operation = .purgeExpiredDisputes now retentionDays) :
    ∃ envValue, e = .purgeExpiredDisputes now envValue := by
  by_cases updates : e.Updates
  · obtain ⟨_, _, _, update⟩ := update_of_performs updates performed
    rw [purge] at update
    cases update
  · cases e with
    | purgeExpiredDisputes now' envValue =>
      cases performed
      cases purge
      exact ⟨envValue, rfl⟩
    | createDispute input' now' | softDeleteDispute id' now' =>
      cases performed
      cases purge
    | restoreDispute id' now' envValue =>
      cases performed
      cases purge
    | _ => exact absurd trivial updates

variable (uuids s e id) in
theorem change_step :
    (step uuids s e).store.get? id = s.store.get? id ∨
      ∃ entry, performs uuids s e = some entry ∧
        Change id entry.operation (s.store.get? id) ((step uuids s e).store.get? id) := by
  rw [store_step]
  cases performed : performs uuids s e with
  | none => exact .inl rfl
  | some entry => exact .inr ⟨entry, rfl, change_apply s.store entry.operation id⟩

theorem drawn_le_step (e : Event) : s.drawn ≤ (step uuids s e).drawn := by
  cases e with
  | createDispute input now => exact Nat.le_succ _
  | _ => exact Nat.le_refl _

theorem Sound.known_step (h : Sound uuids s) (e : Event) (id : String) (record : DisputeRecord)
    (found : (step uuids s e).store.get? id = some record) :
    ∃ k < (step uuids s e).drawn, uuids.draw k = id := by
  have old : ∀ before, s.store.get? id = some before → ∃ k < (step uuids s e).drawn, uuids.draw k = id := by
    intro before there
    obtain ⟨k, small, drew⟩ := h.known id before there
    exact ⟨k, lt_of_lt_of_le small (drawn_le_step e), drew⟩
  rcases change_step uuids s e id with same | ⟨entry, performed, change⟩
  · exact old record (same ▸ found)
  · rw [found] at change
    cases there : s.store.get? id with
    | some before => exact old before there
    | none =>
      rw [there] at change
      generalize made : entry.operation = operation at change
      cases change with
      | created input now =>
        obtain ⟨drew, drawn⟩ := drawn_of_create performed made
        exact ⟨s.drawn, by omega, drew⟩

theorem Sound.step (h : Sound uuids s) (e : Event) : Sound uuids (step uuids s e) where
  replayed := by rw [store_step, history_step, replay_append, ← h.replayed]
  batched := h.batched_step e
  callers := h.callers_step e
  known := h.known_step e

variable {before : DisputeRecord}

theorem Sound.follows (h : Sound uuids s) (e : Event) (there : s.store.get? id = some before)
    (found : (Disputes.step uuids s e).store.get? id = some record) :
    Follows before.status record.status := by
  rcases change_step uuids s e id with same | ⟨entry, performed, change⟩
  · rw [same, there] at found
    cases found
    exact .inl rfl
  · rw [there, found] at change
    refine change.follows fun input now create => ?_
    -- The id was drawn before, and is not drawn again.
    obtain ⟨k, small, drew⟩ := h.known id before there
    obtain ⟨again, -⟩ := drawn_of_create performed create
    have same := uuids.distinct (drew.trans again.symm)
    omega

theorem purge_of_gone (there : s.store.get? id = some before)
    (gone : (Disputes.step uuids s e).store.get? id = none) :
    ∃ now envValue, e = .purgeExpiredDisputes now envValue := by
  rcases change_step uuids s e id with same | ⟨entry, performed, change⟩
  · rw [same, there] at gone
    cases gone
  · rw [there, gone] at change
    obtain ⟨now, retentionDays, purge⟩ := change.purge_of_none
    exact ⟨now, purge_of_performs performed purge⟩

theorem unchanged_of_deleted (updates : e.Updates) (there : s.store.get? id = some before)
    (marked : before.deletedAt ≠ none) : (Disputes.step uuids s e).store.get? id = some before := by
  rcases change_step uuids s e id with same | ⟨entry, performed, change⟩
  · rw [same, there]
  · obtain ⟨key, payload, now, update⟩ := update_of_performs updates performed
    rw [there, update] at change
    exact change.eq_of_deleted marked

end Step

theorem sound_after (events : List Event) : Sound uuids (after uuids events) :=
  run_invariant (fun _ e h => h.step e) (sound_initial uuids) events

/-! ### Batches and the events that begin them -/

/-- The operations that a call of `processBatch` works through. -/
def Call.operations? : Call → Option (List BatchDisputeOperation)
  | .update _ => none
  | .batch call => some call.operations

/-- The call that an event begins: one of `updateDispute`, or one of `processBatch` with what it
was given. -/
def Event.begins : Event → Option (Option (List BatchDisputeOperation))
  | .updateDispute _ _ _ => some none
  | .processBatch operations _ => some (some operations)
  | _ => none

theorem operations_next (call : BatchCall) (store : DisputeStore) (now : Date) :
    (call.next store now).2.operations = call.operations := by
  unfold BatchCall.next
  split <;> rfl

theorem operations?_turn (now : Date) (store : DisputeStore) (call : Call) :
    (turn now store call).2.operations? = call.operations? := by
  cases call with
  | update updating => rfl
  | batch call =>
    obtain ⟨operations, results, current⟩ := call
    rcases current with _ | ⟨outcome, _ | _⟩
    · rfl
    · exact congrArg some (operations_next _ store now)
    · rfl

theorem calls_step (s : State) (e : Event) :
    (step uuids s e).calls.map Call.operations? = s.calls.map Call.operations? ++ e.begins.toList := by
  cases e with
  | updateDispute id updates now => exact List.map_append
  | processBatch operations now =>
    refine List.map_append.trans (congrArg (_ ++ [some ·]) ?_)
    exact operations_next _ s.store now
  | resume index now =>
    exact (map_resumeAt (operations?_turn now) index).trans (List.append_nil _).symm
  | _ => exact (List.append_nil _).symm

theorem calls_after (events : List Event) :
    (after uuids events).calls.map Call.operations? = events.filterMap Event.begins := by
  induction events using List.reverseRecOn with
  | nil => rfl
  | append_singleton events e ih =>
    rw [after_append_singleton, calls_step, ih, List.filterMap_append]
    cases begins : e.begins <;> simp [begins]

/-! ### The life of a dispute -/

/-- A purge between two moments of a run has removed the dispute. -/
def PurgedBetween (done later : List Event) (id : String) : Prop :=
  ∃ mid now envValue, done <+: mid ∧ mid ++ [.purgeExpiredDisputes now envValue] <+: later ∧
    (after uuids mid).store.get? id ≠ none ∧
    (after uuids (mid ++ [.purgeExpiredDisputes now envValue])).store.get? id = none

theorem PurgedBetween.mono {uuids : Uuids} {done later more : List Event}
    (h : PurgedBetween uuids done later id) (longer : later <+: more) :
    PurgedBetween uuids done more id := by
  obtain ⟨mid, now, envValue, before, purge, there, gone⟩ := h
  exact ⟨mid, now, envValue, before, purge.trans longer, there, gone⟩

theorem resolved_until_purged (done : List Event)
    (there : (after uuids done).store.get? id = some before) (resolved : before.status = .resolved)
    (rest : List Event) :
    (∃ record, (after uuids (done ++ rest)).store.get? id = some record ∧ record.status = .resolved) ∨
      PurgedBetween uuids done (done ++ rest) id := by
  induction rest using List.reverseRecOn with
  | nil => exact .inl ⟨before, by simpa using there, resolved⟩
  | append_singleton rest e ih =>
    rw [← List.append_assoc]
    rcases ih with ⟨record, held, stays⟩ | purged
    · have sound := sound_after uuids (done ++ rest)
      cases next : (after uuids (done ++ rest ++ [e])).store.get? id with
      | some record' =>
        rw [after_append_singleton] at next
        refine .inl ⟨record', rfl, ?_⟩
        rcases sound.follows e held next with same | along
        · rw [same, stays]
        · rw [stays] at along
          cases along
      | none =>
        have gone := next
        rw [after_append_singleton] at next
        obtain ⟨now, envValue, rfl⟩ := purge_of_gone held next
        exact .inr ⟨done ++ rest, now, envValue, List.prefix_append _ _, List.prefix_rfl,
          by simp [held], gone⟩
    · exact .inr (purged.mono (List.prefix_append _ _))

/-- What every run of the service keeps. -/
structure Lifecycle (events : List Event) : Prop where
  /-- Each step takes the status of a dispute along `VALID_TRANSITIONS`. -/
  statuses : ∀ done e, done ++ [e] <+: events → ∀ id before record,
    (after uuids done).store.get? id = some before →
    (after uuids (done ++ [e])).store.get? id = some record → Follows before.status record.status
  /-- A resolved dispute stays resolved until it is purged. -/
  resolved : ∀ done later, done <+: later → later <+: events → ∀ id before,
    (after uuids done).store.get? id = some before → before.status = .resolved →
    (∃ record, (after uuids later).store.get? id = some record ∧ record.status = .resolved) ∨
      PurgedBetween uuids done later id
  /-- An update leaves a deleted dispute as it is. -/
  deleted : ∀ done e, done ++ [e] <+: events → e.Updates → ∀ id before,
    (after uuids done).store.get? id = some before → before.deletedAt ≠ none →
    (after uuids (done ++ [e])).store.get? id = some before
  /-- The store is the result of the operations of the history, one after another. -/
  replayed : (after uuids events).store = replay .empty (after uuids events).history
  /-- The calls are those that the events began, a batch with the operations it was given. -/
  begun : (after uuids events).calls.map Call.operations? = events.filterMap Event.begins
  /-- A batch has made the updates of its operations one after another, and its results are
  what `updateDispute` has answered. -/
  batched : ∀ i call, (after uuids events).calls[i]? = some (.batch call) →
    Batched (after uuids events).history i call

/-- Over every interleaving of the service's operations, statuses only go along
`VALID_TRANSITIONS`, a resolved dispute stays resolved until it is purged, no update changes a
deleted dispute, and a batch is the updates it was given, one after another. An update that
fails changes nothing. -/
theorem dispute_lifecycle (uuids : Uuids) (events : List Event) :
    Lifecycle uuids events ∧
    ∀ store id updates now e, (updateDispute store id updates now).1.outcome = .error e →
      (updateDispute store id updates now).2 = store := by
  refine ⟨⟨?_, ?_, ?_, ?_, calls_after uuids events, ?_⟩, fun _ _ _ _ _ => updateDispute_of_error⟩
  · intro done e _ id before record there found
    rw [after_append_singleton] at found
    exact (sound_after uuids done).follows e there found
  · rintro done _ ⟨rest, rfl⟩ _ id before there resolved
    exact resolved_until_purged uuids done there resolved rest
  · intro done e _ updates id before there marked
    rw [after_append_singleton]
    exact unchanged_of_deleted updates there marked
  · exact (sound_after uuids events).replayed
  · exact (sound_after uuids events).batched

def longerIds : Uuids where
  draw n := String.ofList (List.replicate n 'd')
  distinct m n same := by
    have lists := congrArg (fun text : String => text.toList.length) same
    simpa using lists

/-- A dispute is resolved by the first item of a batch, and the second cannot open it again. -/
theorem dispute_lifecycle_batch :
    let operations : List BatchDisputeOperation := [⟨"", some .resolved, none⟩, ⟨"", some .opened, none⟩]
    let now : Date := ⟨some 0⟩
    let s := after longerIds
      [.createDispute ⟨"c1", none, none, none⟩ now, .processBatch operations now, .resume 0 now,
        .resume 0 now, .resume 0 now]
    s.calls.map Call.operations? = [some operations] ∧
      (∀ call, s.calls[0]? = some (.batch call) → Batched s.history 0 call) ∧
      (s.store.get? "").map DisputeRecord.status = some .resolved := by
  intro operations now s
  have lifecycle := (dispute_lifecycle longerIds
    [.createDispute ⟨"c1", none, none, none⟩ now, .processBatch operations now, .resume 0 now,
      .resume 0 now, .resume 0 now]).1
  exact ⟨lifecycle.begun, lifecycle.batched 0, by decide +kernel⟩

end TalentTrust.Disputes
