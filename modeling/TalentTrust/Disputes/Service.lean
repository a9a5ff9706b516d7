import TalentTrust.Lib.Calls
import TalentTrust.Utils.SoftDelete

/-!
`services/disputes.service.ts`: disputes, their statuses and their deletion.

`updateDispute` reads and writes the store before its only `await`, on the escrow
hook, so an operation on the store is never interrupted. `processBatch` gives way
after each of its items. A run is a list of calls and of calls that go on, in any
order; its state keeps the operations it has performed, each with the call that
asked for it.
-/

namespace TalentTrust.Disputes

open TalentTrust.Lib TalentTrust.Retention TalentTrust.SoftDelete

/-! ### Records -/

inductive DisputeStatus where
  /-- `open`, which is a keyword here. -/
  | opened
  | underReview
  | resolved
  | escalated
  deriving DecidableEq, Repr

def DisputeStatus.text : DisputeStatus → String
  | .opened => "open"
  | .underReview => "under_review"
  | .resolved => "resolved"
  | .escalated => "escalated"

def validTransitions : DisputeStatus → List DisputeStatus
  | .opened => [.underReview, .resolved, .escalated]
  | .underReview => [.resolved, .escalated]
  | .resolved => []
  | .escalated => [.resolved]

structure DisputeRecord where
  id : String
  contractId : String
  status : DisputeStatus
  resolution : Option String
  reason : Option String
  raisedBy : Option String
  createdAt : Date
  updatedAt : Date
  deletedAt : Option Date
  deriving DecidableEq

/-- `disputeStore`. Every write puts a new record in place of the old one. -/
abbrev DisputeStore := OrderedMap String DisputeRecord

structure DisputeError where
  code : String
  message : String
  statusCode : Nat
  deriving DecidableEq

/-- What `restoreDispute` throws. -/
inductive RestoreError where
  | dispute (error : DisputeError)
  | retention (error : RetentionError)
  deriving DecidableEq

structure CreateDisputeInput where
  contractId : String
  reason : Option String
  raisedBy : Option String
  status : Option DisputeStatus
  deriving DecidableEq

structure UpdateDisputePayload where
  status : Option DisputeStatus
  resolution : Option String
  deriving DecidableEq

structure BatchDisputeOperation where
  id : String
  status : Option DisputeStatus
  resolution : Option String
  deriving DecidableEq

/-! ### The service -/

def notFound (id : String) : DisputeError :=
  ⟨"dispute_not_found", "Dispute " ++ id ++ " not found", 404⟩

/-- `getDisputeById`, by default without the deleted ones. -/
def getDisputeById (store : DisputeStore) (id : String) (includeDeleted : Bool := false) :
    Except DisputeError DisputeRecord :=
  match store.get? id with
  | none => .error (notFound id)
  | some dispute =>
    if !includeDeleted && dispute.deletedAt.isSome then .error (notFound id) else .ok dispute

/-- The record that `createDispute` makes, under the id that `randomUUID` has drawn. -/
def newDispute (id : String) (input : CreateDisputeInput) (now : Date) : DisputeRecord where
  id := id
  contractId := input.contractId
  status := input.status.getD .opened
  resolution := none
  reason := input.reason
  raisedBy := input.raisedBy
  createdAt := now
  updatedAt := now
  deletedAt := none

variable (store : DisputeStore) (id : String)

def createDispute (input : CreateDisputeInput) (now : Date) : DisputeRecord × DisputeStore :=
  (newDispute id input now, store.set id (newDispute id input now))

def softDeleteDispute (now : Date) : Except DisputeError DisputeRecord × DisputeStore :=
  match store.get? id with
  | none => (.error (notFound id), store)
  | some dispute =>
    if dispute.deletedAt.isSome then
      (.error ⟨"dispute_already_deleted", "Dispute " ++ id ++ " is already soft-deleted", 409⟩, store)
    else
      let updated := { dispute with deletedAt := some now, updatedAt := now }
      (.ok updated, store.set id updated)

def retentionExpired (retentionDays : Int) : RetentionError where
  message := "Dispute " ++ id ++ " retention window of " ++ toString retentionDays ++
    " days has expired"

def restoreDispute (now : Date) (retentionDays : Int) :
    Except RestoreError DisputeRecord × DisputeStore :=
  match store.get? id with
  | none => (.error (.dispute (notFound id)), store)
  | some dispute =>
    match dispute.deletedAt with
    | none =>
      (.error (.dispute ⟨"dispute_not_deleted", "Dispute " ++ id ++ " is not soft-deleted", 409⟩), store)
    | some deletedAt =>
      if isWithinRetentionWindow deletedAt retentionDays now then
        let updated := { dispute with deletedAt := none, updatedAt := now }
        (.ok updated, store.set id updated)
      else
        (.error (.retention (retentionExpired id retentionDays)), store)

/-- The test of `purgeExpiredDisputes`. -/
def expired (now : Date) (retentionDays : Int) (dispute : DisputeRecord) : Bool :=
  dispute.deletedAt.any fun deletedAt => isPastRetentionWindow deletedAt retentionDays now

def purgeExpiredDisputes (now : Date) (retentionDays : Int) : Nat × DisputeStore :=
  (store.entries.countP fun entry => expired now retentionDays entry.2,
    store.filter fun entry => !expired now retentionDays entry.2)

def validateTransition (fromStatus toStatus : DisputeStatus) : Except DisputeError Unit :=
  if fromStatus = toStatus then .ok ()
  else if toStatus ∈ validTransitions fromStatus then .ok ()
  else .error ⟨"invalid_state_transition",
    "Invalid state transition from " ++ fromStatus.text ++ " to " ++ toStatus.text, 400⟩

variable (dispute : DisputeRecord) (updates : UpdateDisputePayload)

/-- The status check of `updateDispute`, which is made only if a status is given. -/
def checkStatus : Except DisputeError Unit :=
  match updates.status with
  | none => .ok ()
  | some status => validateTransition dispute.status status

/-- The record that `updateDispute` writes. -/
def DisputeRecord.updated (now : Date) : DisputeRecord :=
  { dispute with
    status := updates.status.getD dispute.status
    resolution := updates.resolution.or dispute.resolution
    updatedAt := now }

/-- What a call of `updateDispute` comes to; `hook` says that it still awaits the escrow hook,
whose failures it catches. -/
structure Updating where
  outcome : Except DisputeError DisputeRecord
  hook : Bool
  deriving DecidableEq

/-- `updateDispute` up to its `await`. -/
def updateDispute (now : Date) : Updating × DisputeStore :=
  match getDisputeById store id with
  | .error e => (⟨.error e, false⟩, store)
  | .ok dispute =>
    match checkStatus dispute updates with
    | .error e => (⟨.error e, false⟩, store)
    | .ok () =>
      let updatedDispute := dispute.updated updates now
      (⟨.ok updatedDispute, dispute.status ≠ updatedDispute.status⟩, store.set id updatedDispute)

/-! ### Batches -/

structure BatchOperationResult where
  index : Nat
  success : Bool
  dispute : Option DisputeRecord
  /-- Its code and its message. -/
  error : Option (String × String)
  deriving DecidableEq

def batchResult (index : Nat) : Except DisputeError DisputeRecord → BatchOperationResult
  | .ok dispute => ⟨index, true, some dispute, none⟩
  | .error e => ⟨index, false, none, some (e.code, e.message)⟩

def BatchDisputeOperation.payload (operation : BatchDisputeOperation) : UpdateDisputePayload :=
  ⟨operation.status, operation.resolution⟩

/-- A call of `processBatch`. It awaits the update of the item that comes after its results,
or it has returned. -/
structure BatchCall where
  operations : List BatchDisputeOperation
  results : List BatchOperationResult
  current : Option Updating
  deriving DecidableEq

/-- The next item, up to its `await`. -/
def BatchCall.next (call : BatchCall) (store : DisputeStore) (now : Date) :
    DisputeStore × BatchCall :=
  match call.operations[call.results.length]? with
  | none => (store, { call with current := none })
  | some operation =>
    let updating := updateDispute store operation.id operation.payload now
    (updating.2, { call with current := some updating.1 })

def processBatch (operations : List BatchDisputeOperation) (now : Date) :
    DisputeStore × BatchCall :=
  BatchCall.next ⟨operations, [], none⟩ store now

/-- The awaited update has settled, and its result is pushed. -/
def BatchCall.push (call : BatchCall) (outcome : Except DisputeError DisputeRecord) : BatchCall :=
  { call with
    results := call.results ++ [batchResult call.results.length outcome]
    current := none }

/-- A turn of `processBatch`: the hook of its item has settled, or the item's promise. -/
def BatchCall.turn (call : BatchCall) (store : DisputeStore) (now : Date) :
    DisputeStore × BatchCall :=
  match call.current with
  | none => (store, call)
  | some ⟨outcome, true⟩ => (store, { call with current := some ⟨outcome, false⟩ })
  | some ⟨outcome, false⟩ => (call.push outcome).next store now

/-! ### Runs -/

inductive Call where
  | update (updating : Updating)
  | batch (call : BatchCall)
  deriving DecidableEq

/-- A call goes on from its `await`. -/
def turn (now : Date) (store : DisputeStore) : Call → DisputeStore × Call
  | .update updating => (store, .update { updating with hook := false })
  | .batch call => ((call.turn store now).1, .batch (call.turn store now).2)

/-- The operations on the store. -/
inductive Operation where
  | createDispute (id : String) (input : CreateDisputeInput) (now : Date)
  | softDeleteDispute (id : String) (now : Date)
  | restoreDispute (id : String) (now : Date) (retentionDays : Int)
  | purgeExpiredDisputes (now : Date) (retentionDays : Int)
  | updateDispute (id : String) (updates : UpdateDisputePayload) (now : Date)
  deriving DecidableEq

def Operation.apply : Operation → DisputeStore
  | .createDispute id input now => (Disputes.createDispute store id input now).2
  | .softDeleteDispute id now => (Disputes.softDeleteDispute store id now).2
  | .restoreDispute id now retentionDays => (Disputes.restoreDispute store id now retentionDays).2
  | .purgeExpiredDisputes now retentionDays =>
    (Disputes.purgeExpiredDisputes store now retentionDays).2
  | .updateDispute id updates now => (Disputes.updateDispute store id updates now).2

/-- An operation, and the position of the call that has asked for it if that is one of
`updateDispute` or `processBatch`. -/
structure Entry where
  caller : Option Nat
  operation : Operation
  deriving DecidableEq

structure State where
  store : DisputeStore
  calls : List Call
  /-- How many ids `randomUUID` has drawn. -/
  drawn : Nat
  /-- The operations so far, oldest first. Nothing reads it. -/
  history : List Entry

/-- `randomUUID`: it never draws an id twice. -/
structure Uuids where
  draw : Nat → String
  distinct : Function.Injective draw

/-- `envValue` is `DISPUTES_SOFT_DELETE_RETENTION_DAYS` at the call. -/
inductive Event where
  | createDispute (input : CreateDisputeInput) (now : Date)
  | softDeleteDispute (id : String) (now : Date)
  | restoreDispute (id : String) (now : Date) (envValue : Option String)
  | purgeExpiredDisputes (now : Date) (envValue : Option String)
  | updateDispute (id : String) (updates : UpdateDisputePayload) (now : Date)
  | processBatch (operations : List BatchDisputeOperation) (now : Date)
  /-- The call at a position goes on. -/
  | resume (index : Nat) (now : Date)
  deriving DecidableEq

/-- The update that the next item of a batch makes. -/
def BatchCall.nextOperation (call : BatchCall) (now : Date) : Option Operation :=
  call.operations[call.results.length]?.map fun operation =>
    .updateDispute operation.id operation.payload now

/-- The update that a turn of a call makes. -/
def Call.nextOperation (now : Date) : Call → Option Operation
  | .update _ => none
  | .batch call =>
    match call.current with
    | some ⟨outcome, false⟩ => (call.push outcome).nextOperation now
    | _ => none

/-- The operation that an event performs. -/
def performs (uuids : Uuids) (s : State) : Event → Option Entry
  | .createDispute input now => some ⟨none, .createDispute (uuids.draw s.drawn) input now⟩
  | .softDeleteDispute id now => some ⟨none, .softDeleteDispute id now⟩
  | .restoreDispute id now envValue =>
    some ⟨none, .restoreDispute id now (parseRetentionDays envValue)⟩
  | .purgeExpiredDisputes now envValue =>
    some ⟨none, .purgeExpiredDisputes now (parseRetentionDays envValue)⟩
  | .updateDispute id updates now => some ⟨some s.calls.length, .updateDispute id updates now⟩
  | .processBatch operations now =>
    (BatchCall.nextOperation ⟨operations, [], none⟩ now).map fun operation =>
      ⟨some s.calls.length, operation⟩
  | .resume index now =>
    (s.calls[index]?.bind (Call.nextOperation now)).map fun operation => ⟨some index, operation⟩

def step (uuids : Uuids) (s : State) (e : Event) : State :=
  let history := s.history ++ (performs uuids s e).toList
  match e with
  | .createDispute input now =>
    { s with
      store := (createDispute s.store (uuids.draw s.drawn) input now).2
      drawn := s.drawn + 1
      history }
  | .softDeleteDispute id now => { s with store := (softDeleteDispute s.store id now).2, history }
  | .restoreDispute id now envValue =>
    { s with store := (restoreDispute s.store id now (parseRetentionDays envValue)).2, history }
  | .purgeExpiredDisputes now envValue =>
    { s with store := (purgeExpiredDisputes s.store now (parseRetentionDays envValue)).2, history }
  | .updateDispute id updates now =>
    let updating := updateDispute s.store id updates now
    { s with store := updating.2, calls := s.calls ++ [.update updating.1], history }
  | .processBatch operations now =>
    let batch := processBatch s.store operations now
    { s with store := batch.1, calls := s.calls ++ [.batch batch.2], history }
  | .resume index now =>
    let next := resumeAt (turn now) index (s.store, s.calls)
    { s with store := next.1, calls := next.2, history }

def State.initial : State := ⟨OrderedMap.empty, [], 0, []⟩

variable (uuids : Uuids) (events : List Event)

def after : State := run (step uuids) .initial events

theorem after_append_singleton (e : Event) :
    after uuids (events ++ [e]) = step uuids (after uuids events) e :=
  run_append _ _ _

end TalentTrust.Disputes
