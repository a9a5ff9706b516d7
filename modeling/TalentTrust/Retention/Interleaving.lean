import TalentTrust.Retention.Guarantees
import TalentTrust.Lib.Calls

/-!
`runRetentionChecks`, `restoreArchivedData` and `retrieveData` while they wait.

Every call of a provider is awaited, so between two of them any other call may run. A
call is where it waits; its turn makes the pending provider call and goes on to the next
one. Nothing but the storage is shared: the lists that `runRetentionChecks` loops over are
the ones it was given, while a restore moves their records back.

`check_alone` says that a check that nothing interrupts does what the function does at
once. `checks_spare_restored` is about every interleaving in which no
restore lands between the moment a check turns to a record and its deletion of it.
-/

namespace TalentTrust.Retention.Interleaving

open TalentTrust.Lib

/-! ### Where a call waits -/

/-- The provider calls of `restoreArchivedData`; the three in the middle are those of
`moveData`. -/
inductive RestoreStage where
  | retrieving
  | moving (archivedData : RetainedData)
  | storing (archivedData data : RetainedData)
  | clearing (archivedData : RetainedData)
  | finishing (archivedData : RetainedData)
  deriving DecidableEq

inductive ArchiveStage where
  | retrieving
  | storing (data : RetainedData) (archivedAt : Instant)
  | flagging (data : RetainedData) (result : ArchivalResult)
  deriving DecidableEq

inductive DeleteStage where
  | retrieving
  | retrievingArchived
  | deletingLocal (data : RetainedData)
  | deletingCold (data : RetainedData) (deletedLocal : Bool)
  | deletingEncrypted (data : RetainedData) (deletedLocal : Bool)
  deriving DecidableEq

/-- The provider calls of `runRetentionChecks`, with what the loop has still to visit. -/
inductive CheckStage where
  | listingLocal
  | archiving (dataId : String) (stage : ArchiveStage) (rest : List RetainedData)
  | listing (storageType : ArchivalStorageType)
  | deleting (storageType : ArchivalStorageType) (dataId : String) (stage : DeleteStage)
      (rest : List RetainedData)
  deriving DecidableEq

/-- A call that waits, or what it returned. A check keeps the length that the history had
when it began. -/
inductive Pending where
  | retrieve (dataId : String)
  | restore (dataId actor : String) (stage : RestoreStage)
  | check (since : Nat) (result : CheckResult) (stage : CheckStage)
  | retrieved (data : Option RetainedData)
  | restored (result : Except String RetainedData)
  | checked (result : CheckResult)

/-- What a run is judged by: the restores that have completed, the records that checks have
deleted, and for every check that has ended what `retrieveData` found then of the records
restored while it ran. -/
inductive Record where
  | restored (dataId : String)
  | deleted (data : RetainedData)
  | checked (found : List (String × Option RetainedData))

/-- The records whose restore has completed since the history had length `since`. -/
def restoredSince (since : Nat) (history : List Record) : List String :=
  (history.drop since).filterMap fun
    | .restored dataId => some dataId
    | _ => none

structure Shared (L A : Type) where
  manager : Manager L A
  history : List Record

variable {L A : Type} (s : Shared L A)

def Shared.setStorage (storage : Storage L A) : Shared L A :=
  { s with manager := { s.manager with storage := storage } }

def Shared.logAction (entry : AuditEntry) : Shared L A :=
  { s with manager := s.manager.logAction entry }

def Shared.note (records : List Record) : Shared L A :=
  { s with history := s.history ++ records }

section Turns

variable (rt : Runtime) (P : Providers L A) (config : RetentionConfig) (now : Instant)

/-! ### Turns -/

def turnRestore (dataId actor : String) (s : Shared L A) : RestoreStage → Shared L A × Pending
  | .retrieving =>
    match s.manager.storage.retrieve P dataId .coldStorage with
    | none => (s, .restored (.error ("Archived data not found: " ++ dataId)))
    | some archivedData => (s, .restore dataId actor (.moving archivedData))
  | .moving archivedData =>
    match s.manager.storage.retrieve P dataId .coldStorage with
    | none => (s, .restored (.error ("Failed to restore data " ++ dataId ++ " from archive")))
    | some data => (s, .restore dataId actor (.storing archivedData data))
  | .storing archivedData data =>
    let stored := s.manager.storage.store P data .localStorage
    if stored.1 = "" then
      (s.setStorage stored.2,
        .restored (.error ("Failed to restore data " ++ dataId ++ " from archive")))
    else (s.setStorage stored.2, .restore dataId actor (.clearing archivedData))
  | .clearing archivedData =>
    (s.setStorage (s.manager.storage.delete P dataId .coldStorage).2,
      .restore dataId actor (.finishing archivedData))
  | .finishing archivedData =>
    let data := restoredData archivedData
    (((s.setStorage (s.manager.storage.store P data .localStorage).2).logAction
        ⟨dataId, data.entityType, .restore, actor, config.complianceStandard⟩).note
          [.restored data.id],
      .restored (.ok data))

/-- The check goes on to its next provider call, or returns. -/
def proceed (since : Nat) (result : CheckResult) (s : Shared L A) :
    Option CheckStage → Shared L A × Pending
  | some stage => (s, .check since result stage)
  | none =>
    (s.note [.checked ((restoredSince since s.history).map fun dataId =>
        (dataId, retrieveData P dataId s.manager))],
      .checked result)

/-- The first stage of the deletions. -/
def deletions : Option CheckStage :=
  if config.automaticDeletion then some (.listing .coldStorage) else none

/-- The loop over local data, up to the next record that is archived. -/
def archiveNext (rest : List RetainedData) : Option CheckStage :=
  match rest.dropWhile fun data => !(!data.isArchived && shouldArchive now data) with
  | [] => deletions config
  | data :: rest => some (.archiving data.id .retrieving rest)

/-- The loop over the data of an archive, up to the next record that is deleted. The
encrypted archive comes after cold storage. -/
def deleteNext (storageType : ArchivalStorageType) (rest : List RetainedData) : Option CheckStage :=
  match rest.dropWhile fun data =>
      !(data.isArchived && shouldPermanentlyDelete config.postArchivalRetentionDays now data) with
  | [] => if storageType = .coldStorage then some (.listing .encryptedArchive) else none
  | data :: rest => some (.deleting storageType data.id .retrieving rest)

/-- An error in the loop is counted, and the loop goes on. -/
def CheckResult.fail (result : CheckResult) : CheckResult := { result with failed := result.failed + 1 }

def turnArchive (since : Nat) (result : CheckResult) (dataId : String) (rest : List RetainedData)
    (s : Shared L A) : ArchiveStage → Shared L A × Pending
  | .retrieving =>
    match retrieveData P dataId s.manager with
    | none => proceed P since (CheckResult.fail result) s (archiveNext config now rest)
    | some data =>
      if data.isArchived = true ∨ shouldArchive now data = false then
        proceed P since (CheckResult.fail result) s (archiveNext config now rest)
      else (s, .check since result (.archiving dataId (.storing data now) rest))
  | .storing data archivedAt =>
    match archive rt P config archivedAt s.manager.engine data s.manager.storage with
    | .error _ => proceed P since (CheckResult.fail result) s (archiveNext config now rest)
    | .ok (stored, storage) =>
      (s.setStorage storage, .check since result (.archiving dataId (.flagging data stored) rest))
  | .flagging data stored =>
    proceed P since { result with archived := result.archived + 1 }
      ((s.setStorage (s.manager.storage.store P (flaggedData stored data) .localStorage).2).logAction
        ⟨dataId, data.entityType, .archive, "system-autoprocess", config.complianceStandard⟩)
      (archiveNext config now rest)

/-- A deletion by a check. -/
def remove (dataId : String) (storageType : ArchivalStorageType) (s : Shared L A) : Shared L A :=
  (s.setStorage (s.manager.storage.delete P dataId storageType).2).note
    ((s.manager.storage.retrieve P dataId storageType).toList.map .deleted)

/-- The deletion is logged if there was something to delete. -/
def Shared.logDeletion (s : Shared L A) (dataId : String) (data : RetainedData) (deleted : Bool) :
    Shared L A :=
  if deleted then
    s.logAction ⟨dataId, data.entityType, .delete, "system-autoprocess", config.complianceStandard⟩
  else s

variable (since : Nat) (result : CheckResult)

def turnDelete (storageType : ArchivalStorageType)
    (dataId : String) (rest : List RetainedData) (s : Shared L A) :
    DeleteStage → Shared L A × Pending
  | .retrieving =>
    match retrieveData P dataId s.manager with
    | none => (s, .check since result (.deleting storageType dataId .retrievingArchived rest))
    | some data => (s, .check since result (.deleting storageType dataId (.deletingLocal data) rest))
  | .retrievingArchived =>
    match s.manager.storage.retrieve P dataId .coldStorage with
    | none => proceed P since (CheckResult.fail result) s (deleteNext config now storageType rest)
    | some data => (s, .check since result (.deleting storageType dataId (.deletingLocal data) rest))
  | .deletingLocal data =>
    (remove P dataId .localStorage s,
      .check since result (.deleting storageType dataId
        (.deletingCold data (s.manager.storage.delete P dataId .localStorage).1) rest))
  | .deletingCold data deletedLocal =>
    if (s.manager.storage.delete P dataId .coldStorage).1 then
      proceed P since { result with deleted := result.deleted + 1 }
        ((remove P dataId .coldStorage s).logDeletion config dataId data true)
        (deleteNext config now storageType rest)
    else
      (remove P dataId .coldStorage s,
        .check since result (.deleting storageType dataId (.deletingEncrypted data deletedLocal) rest))
  | .deletingEncrypted data deletedLocal =>
    proceed P since { result with deleted := result.deleted + 1 }
      ((remove P dataId .encryptedArchive s).logDeletion config dataId data
        (deletedLocal || (s.manager.storage.delete P dataId .encryptedArchive).1))
      (deleteNext config now storageType rest)

variable (s : Shared L A)

def turnCheck :
    CheckStage → Shared L A × Pending
  | .listingLocal =>
    proceed P since result s (archiveNext config now (s.manager.storage.list P .localStorage))
  | .archiving dataId stage rest => turnArchive rt P config now since result dataId rest s stage
  | .listing storageType =>
    proceed P since result s
      (deleteNext config now storageType (s.manager.storage.list P storageType))
  | .deleting storageType dataId stage rest =>
    turnDelete P config now since result storageType dataId rest s stage

def turn : Pending → Shared L A × Pending
  | .retrieve dataId => (s, .retrieved (retrieveData P dataId s.manager))
  | .restore dataId actor stage => turnRestore P config dataId actor s stage
  | .check since result stage => turnCheck rt P config now since result s stage
  | returned => (s, returned)

/-- `runRetentionChecks` up to its first provider call. -/
def startCheck : Shared L A × Pending :=
  if config.enabled = false then (s, .checked ⟨0, 0, 0⟩)
  else
    proceed P s.history.length ⟨0, 0, 0⟩ s
      (if config.automaticArchival then some .listingLocal else deletions config)

end Turns

/-! ### Runs -/

inductive Event where
  | retrieveData (dataId : String)
  | restoreArchivedData (dataId actor : String)
  | runRetentionChecks
  | turn (i : Nat) (now : Instant)

abbrev State (L A : Type) := Shared L A × List Pending

section Runs

variable (rt : Runtime) (P : Providers L A) (config : RetentionConfig)

def step (s : State L A) : Event → State L A
  | .retrieveData dataId => (s.1, s.2 ++ [.retrieve dataId])
  | .restoreArchivedData dataId actor => (s.1, s.2 ++ [.restore dataId actor .retrieving])
  | .runRetentionChecks => ((startCheck P config s.1).1, s.2 ++ [(startCheck P config s.1).2])
  | .turn i now => resumeAt (turn rt P config now) i s

def begin (m : Manager L A) : State L A := (⟨m, []⟩, [])

/-! ### A check that spares restored data -/

/-- What was deleted was archived; what was restored while a check ran is found when the check
ends. -/
def Record.Fine : Record → Prop
  | .restored _ => True
  | .deleted data => data.isArchived = true
  | .checked found => ∀ entry ∈ found, entry.2.isSome = true

instance (record : Record) : Decidable record.Fine := by
  cases record <;> unfold Record.Fine <;> infer_instance

/-- The checks have spared what was restored. -/
def Spares (s : State L A) : Prop := ∀ record ∈ s.1.history, record.Fine

/-- The record that a check is about to delete: its local copy is still to go. -/
def Pending.target : Pending → Option String
  | .check _ _ (.deleting _ dataId stage _) =>
    match stage with
    | .retrieving | .retrievingArchived | .deletingLocal _ => some dataId
    | .deletingCold _ _ | .deletingEncrypted _ _ => none
  | _ => none

/-- The record that a check has just turned to. -/
def Pending.chosen : Pending → Option String
  | .check _ _ (.deleting _ dataId .retrieving _) => some dataId
  | _ => none

/-- The record that a restore is about to put back. -/
def Pending.returning : Pending → Option String
  | .restore _ _ (.finishing archivedData) => some archivedData.id
  | _ => none

variable {call : Pending}

theorem eq_finishing_of_returning {id : String} (returning : call.returning = some id) :
    ∃ dataId actor archivedData, call = .restore dataId actor (.finishing archivedData) := by
  unfold Pending.returning at returning
  split at returning
  · exact ⟨_, _, _, rfl⟩
  · cases returning

/-- The records restored since a check under way began. -/
def Pending.spared (history : List Record) : Pending → List String
  | .check since _ _ => restoredSince since history
  | _ => []

/-- The record is not active, and was not restored while a check that is still under way ran. -/
structure Unrestored (s : State L A) (dataId : String) : Prop where
  inactive : ∀ row ∈ retrieveData P dataId s.1.manager, row.isArchived = true
  unspared : ∀ call ∈ s.2, dataId ∉ call.spared s.1.history

instance (s : State L A) (dataId : String) : Decidable (Unrestored P s dataId) :=
  decidable_of_iff (_ ∧ _) ⟨fun h => ⟨h.1, h.2⟩, fun h => ⟨h.inactive, h.unspared⟩⟩

/-- A restore puts no record back that a check is about to delete, and a check turns to no
record that has been restored. -/
def Undisturbed (s : State L A) : Event → Prop
  | .turn i now =>
    ∀ call ∈ s.2[i]?,
      (∀ dataId ∈ call.returning, ∀ other ∈ s.2, dataId ∉ other.target) ∧
        ∀ dataId ∈ (turn rt P config now s.1 call).2.chosen, Unrestored P s dataId
  | _ => True

instance (s : State L A) : ∀ event, Decidable (Undisturbed rt P config s event)
  | .turn i _ =>
    inferInstanceAs (Decidable (∀ call ∈ s.2[i]?,
      (∀ dataId ∈ call.returning, ∀ other ∈ s.2, _) ∧ ∀ dataId ∈ Pending.chosen _, _))
  | .retrieveData _ | .restoreArchivedData _ _ | .runRetentionChecks => isTrue trivial

/-! ### A call that nothing interrupts -/

section Alone

variable (now : Instant)

/-- One call takes turn after turn. -/
def Leads : Shared L A × Pending → Shared L A × Pending → Prop :=
  Relation.ReflTransGen fun p q => turn rt P config now p.1 p.2 = q

variable {rt P config now}

theorem Leads.turn {s : Shared L A} {q : Shared L A × Pending}
    (rest : Leads rt P config now (turn rt P config now s call) q) :
    Leads rt P config now (s, call) q := .head rfl rest

theorem Leads.trans {p q r : Shared L A × Pending} (first : Leads rt P config now p q)
    (second : Leads rt P config now q r) : Leads rt P config now p r :=
  Relation.ReflTransGen.trans first second

variable (s : Shared L A) {since : Nat} {result : CheckResult} {storageType : ArchivalStorageType}
  {rest : List RetainedData} {data : RetainedData}

theorem archive_alone (chosen : (!data.isArchived && shouldArchive now data) = true) :
    Leads rt P config now (s, .check since result (.archiving data.id .retrieving rest))
      (let after := archiveStep rt P config now (result, s.manager) data
       proceed P since after.1 ⟨after.2, s.history⟩ (archiveNext config now rest)) := by
  refine .turn ?_
  simp only [archiveStep, chosen, if_true, Interleaving.turn, turnCheck, turnArchive, archiveData]
  cases read : retrieveData P data.id s.manager with
  | none => exact .refl
  | some row =>
    by_cases archived : row.isArchived = true
    · simp only [archived, true_or, if_true]
      exact .refl
    · by_cases early : shouldArchive now row = false
      · simp only [archived, early, or_true, if_true, Bool.false_eq_true, if_false]
        exact .refl
      · have active : row.isArchived = false := Bool.eq_false_iff.mpr archived
        simp only [active, early, Bool.false_eq_true, if_false]
        refine .turn ?_
        simp only [Interleaving.turn, turnCheck, turnArchive, archive_eq rt P config now active]
        exact .turn .refl

variable (data rest) in
theorem archiveNext_cons :
    archiveNext config now (data :: rest) =
      if !data.isArchived && shouldArchive now data then some (.archiving data.id .retrieving rest)
      else archiveNext config now rest := by
  unfold archiveNext
  cases chosen : !data.isArchived && shouldArchive now data <;> simp [List.dropWhile, chosen]

theorem archiveLoop_alone (since : Nat) (rest : List RetainedData) (result : CheckResult)
    (s : Shared L A) :
    Leads rt P config now (proceed P since result s (archiveNext config now rest))
      (let after := rest.foldl (archiveStep rt P config now) (result, s.manager)
       proceed P since after.1 ⟨after.2, s.history⟩ (deletions config)) := by
  induction rest generalizing result s with
  | nil => exact .refl
  | cons data rest ih =>
    rw [archiveNext_cons, List.foldl_cons]
    split
    · rename_i chosen
      exact (archive_alone s chosen).trans (ih _ _)
    · rename_i passed
      rw [archiveStep, if_neg passed]
      exact ih result s

variable (rt) in
theorem deleteFromBoth_alone {dataId : String} (s : Shared L A) (data : RetainedData) :
    ∃ history, Leads rt P config now
      (s, .check since result (.deleting storageType dataId (.deletingLocal data) rest))
      (proceed P since { result with deleted := result.deleted + 1 }
        (Shared.logDeletion config
          ⟨{ s.manager with storage := (deleteFromBoth P dataId s.manager.storage).2 }, history⟩
          dataId data (deleteFromBoth P dataId s.manager.storage).1)
        (deleteNext config now storageType rest)) := by
  have first : Leads rt P config now
      (s, .check since result (.deleting storageType dataId (.deletingLocal data) rest))
      (remove P dataId .localStorage s, .check since result (.deleting storageType dataId
        (.deletingCold data (s.manager.storage.delete P dataId .localStorage).1) rest)) :=
    .turn .refl
  cases cold : ((s.manager.storage.delete P dataId .localStorage).2.delete P dataId .coldStorage).1 with
  | true =>
    refine ⟨(remove P dataId .coldStorage (remove P dataId .localStorage s)).history,
      first.trans (.turn ?_)⟩
    simp only [Interleaving.turn, turnCheck, turnDelete, deleteFromBoth, remove, Shared.note,
      Shared.setStorage, cold, if_true, Bool.or_true]
    exact .refl
  | false =>
    refine ⟨(remove P dataId .encryptedArchive (remove P dataId .coldStorage
      (remove P dataId .localStorage s))).history, first.trans (.turn ?_)⟩
    simp only [Interleaving.turn, turnCheck, turnDelete, deleteFromBoth, remove, Shared.note,
      Shared.setStorage, cold, Bool.false_eq_true, if_false]
    exact .turn .refl

variable (rt P) in
theorem delete_alone (s : Shared L A) (chosen : (data.isArchived &&
      shouldPermanentlyDelete config.postArchivalRetentionDays now data) = true) :
    ∃ history, Leads rt P config now
      (s, .check since result (.deleting storageType data.id .retrieving rest))
      (let after := deleteStep P config now (result, s.manager) data
       proceed P since after.1 ⟨after.2, history⟩ (deleteNext config now storageType rest)) := by
  cases read : (retrieveData P data.id s.manager).or
      (s.manager.storage.retrieve P data.id .coldStorage) with
  | some row =>
    have reads : Leads rt P config now
        (s, .check since result (.deleting storageType data.id .retrieving rest))
        (s, .check since result (.deleting storageType data.id (.deletingLocal row) rest)) := by
      refine .turn ?_
      cases active : retrieveData P data.id s.manager with
      | some data' =>
        rw [active, Option.some_or] at read
        cases read
        simp only [Interleaving.turn, turnCheck, turnDelete, active]
        exact .refl
      | none =>
        rw [active, Option.none_or] at read
        simp only [Interleaving.turn, turnCheck, turnDelete, active]
        refine .turn ?_
        simp only [Interleaving.turn, turnCheck, turnDelete, read]
        exact .refl
    obtain ⟨history, leads⟩ := deleteFromBoth_alone rt s row
    refine ⟨history, reads.trans ?_⟩
    simp only [deleteStep, chosen, if_true, deleteData, read]
    rcases both : deleteFromBoth P data.id s.manager.storage with ⟨deleted, storage⟩
    rw [both] at leads
    cases deleted <;> exact leads
  | none =>
    obtain ⟨noLocal, noCopy⟩ := Option.or_eq_none_iff.mp read
    refine ⟨s.history, .turn ?_⟩
    simp only [deleteStep, chosen, if_true, deleteData, Interleaving.turn, turnCheck, turnDelete, noLocal]
    refine .turn ?_
    simp only [Interleaving.turn, turnCheck, turnDelete, noCopy]
    exact .refl

variable (storageType) in
theorem deleteNext_cons (data : RetainedData) (rest : List RetainedData) :
    deleteNext config now storageType (data :: rest) =
      if data.isArchived && shouldPermanentlyDelete config.postArchivalRetentionDays now data then
        some (.deleting storageType data.id .retrieving rest)
      else deleteNext config now storageType rest := by
  unfold deleteNext
  cases chosen : data.isArchived &&
    shouldPermanentlyDelete config.postArchivalRetentionDays now data <;>
      simp [List.dropWhile, chosen]

variable (rt P) in
theorem deleteLoop_alone (since : Nat) (storageType : ArchivalStorageType) (rest : List RetainedData)
    (result : CheckResult) (s : Shared L A) :
    ∃ history, Leads rt P config now (proceed P since result s (deleteNext config now storageType rest))
      (let after := rest.foldl (deleteStep P config now) (result, s.manager)
       proceed P since after.1 ⟨after.2, history⟩ (deleteNext config now storageType [])) := by
  induction rest generalizing result s with
  | nil => exact ⟨s.history, .refl⟩
  | cons data rest ih =>
    rw [deleteNext_cons, List.foldl_cons]
    split
    · rename_i chosen
      obtain ⟨history, first⟩ := delete_alone rt P s chosen
      obtain ⟨history', others⟩ := ih (deleteStep P config now (result, s.manager) data).1
        ⟨(deleteStep P config now (result, s.manager) data).2, history⟩
      exact ⟨history', first.trans others⟩
    · rename_i passed
      rw [deleteStep, if_neg passed]
      exact ih result s

theorem deletions_alone (since : Nat) (result : CheckResult) (s : Shared L A) :
    ∃ history, Leads rt P config now (proceed P since result s (deletions config))
      (let last := if config.automaticDeletion then
          deleteFrom P config now .encryptedArchive (deleteFrom P config now .coldStorage (result, s.manager))
        else (result, s.manager)
       (⟨last.2, history⟩, .checked last.1)) := by
  unfold deletions
  split
  · obtain ⟨history, cold⟩ := deleteLoop_alone rt P since .coldStorage
      (s.manager.storage.list P .coldStorage) result s
    obtain ⟨history', encrypted⟩ := deleteLoop_alone rt P since .encryptedArchive
      ((deleteFrom P config now .coldStorage (result, s.manager)).2.storage.list P .encryptedArchive)
      (deleteFrom P config now .coldStorage (result, s.manager)).1
      ⟨(deleteFrom P config now .coldStorage (result, s.manager)).2, history⟩
    exact ⟨_, (Leads.turn cold).trans (Leads.turn encrypted)⟩
  · exact ⟨_, .refl⟩

/-- An uninterrupted check is `runRetentionChecks`. -/
theorem check_alone :
    ∃ history, Leads rt P config now (startCheck P config s)
      (⟨(runRetentionChecks rt P config now s.manager).2, history⟩,
        .checked (runRetentionChecks rt P config now s.manager).1) := by
  unfold startCheck runRetentionChecks
  split
  · exact ⟨s.history, .refl⟩
  · cases config.automaticArchival with
    | false => exact deletions_alone s.history.length ⟨0, 0, 0⟩ s
    | true =>
      have archives : Leads rt P config now (s, .check s.history.length ⟨0, 0, 0⟩ .listingLocal) _ :=
        .turn (archiveLoop_alone s.history.length (s.manager.storage.list P .localStorage) ⟨0, 0, 0⟩ s)
      obtain ⟨history, deletes⟩ := deletions_alone s.history.length
        (archiveLocal rt P config now (⟨0, 0, 0⟩, s.manager)).1
        ⟨(archiveLocal rt P config now (⟨0, 0, 0⟩, s.manager)).2, s.history⟩
      exact ⟨history, archives.trans deletes⟩

end Alone

/-! ### What a turn does to what is shared -/

section Effects

variable {P} {config} {gone : Option String} {s s' s'' : Shared L A} {dataId : String} {since : Nat}

theorem mem_restoredSince_append {history records : List Record}
    (mem : dataId ∈ restoredSince since (history ++ records)) :
    dataId ∈ restoredSince since history ∨ .restored dataId ∈ records := by
  rw [restoredSince, List.drop_append, List.filterMap_append, List.mem_append] at mem
  refine mem.imp id fun new => ?_
  obtain ⟨record, found, named⟩ := List.mem_filterMap.mp new
  cases record with
  | restored other =>
    cases named
    exact List.mem_of_mem_drop found
  | deleted data | checked entries => cases named

variable (P gone) in
/-- Local records change only into archived ones and go only at `gone`, what comes to the archive
is marked as archived, and nothing is put back. -/
structure Effects (s s' : Shared L A) : Prop where
  active : ∀ id, ∀ row ∈ retrieveData P id s'.manager,
    row ∈ retrieveData P id s.manager ∨ row.isArchived = true
  present : ∀ id, id ∉ gone → (retrieveData P id s.manager).isSome = true →
    (retrieveData P id s'.manager).isSome = true
  copies : ∀ id, ∀ copy ∈ (s'.manager.storage.cell P id).archived,
    copy ∈ (s.manager.storage.cell P id).archived ∨ copy.isArchived = true
  history : ∃ records, s'.history = s.history ++ records ∧
    ∀ record ∈ records, record.Fine ∧ ∀ id, record ≠ .restored id

variable (P s) in
/-- The archive holds records that are marked as archived. -/
def Copies : Prop :=
  ∀ id, ∀ copy ∈ (s.manager.storage.cell P id).archived, copy.isArchived = true

theorem Effects.of_eq (storage : s'.manager.storage = s.manager.storage)
    (history : s'.history = s.history) : Effects P gone s s' where
  active id row found := by
    unfold retrieveData at found ⊢
    rw [storage] at found
    exact .inl found
  present id _ found := by
    unfold retrieveData at found ⊢
    rwa [storage]
  copies id copy held := by
    rw [storage] at held
    exact .inl held
  history := ⟨[], by rw [history, List.append_nil], by simp⟩

theorem Effects.weaken (effects : Effects P none s s') : Effects P gone s s' where
  __ := effects
  present id _ := effects.present id (by simp)

theorem Effects.restoredSince (effects : Effects P gone s s') {id : String}
    (mem : id ∈ restoredSince since s'.history) : id ∈ restoredSince since s.history := by
  obtain ⟨records, grown, fine⟩ := effects.history
  rw [grown] at mem
  rcases mem_restoredSince_append mem with old | new
  · exact old
  · exact absurd rfl ((fine _ new).2 id)

theorem Effects.of_cell {storage : Storage L A} {change : Cell → Cell}
    (cells : ∀ id, storage.cell P id =
      if id = dataId then change (s.manager.storage.cell P id) else s.manager.storage.cell P id)
    (active : ∀ c, ∀ row ∈ (change c).active, row ∈ c.active ∨ row.isArchived = true)
    (present : dataId ∉ gone → ∀ c, c.active.isSome = true → (change c).active.isSome = true)
    (copies : ∀ c, ∀ copy ∈ (change c).archived, copy ∈ c.archived ∨ copy.isArchived = true) :
    Effects P gone s (s.setStorage storage) where
  active id row found := by
    change row ∈ (storage.cell P id).active at found
    rw [cells] at found
    split at found
    · exact active _ row found
    · exact .inl found
  present id spared found := by
    change (storage.cell P id).active.isSome = true
    rw [cells]
    split
    · rename_i here
      exact present (here ▸ spared) _ found
    · exact found
  copies id copy held := by
    change copy ∈ (storage.cell P id).archived at held
    rw [cells] at held
    split at held
    · exact copies _ copy held
    · exact .inl held
  history := ⟨[], (List.append_nil _).symm, by simp⟩

theorem Effects.store {data : RetainedData} (marked : data.isArchived = true)
    (storageType : ArchivalStorageType) :
    Effects P none s (s.setStorage (s.manager.storage.store P data storageType).2) := by
  refine .of_cell (Storage.cell_store P _ data storageType) ?_ ?_ ?_
  all_goals unfold Cell.put
  all_goals cases storageType.archives
  all_goals simp +contextual [marked]

theorem Effects.delete (dataId : String) (storageType : ArchivalStorageType)
    (local_gone : storageType.archives = false → gone = some dataId) :
    Effects P gone s (s.setStorage (s.manager.storage.delete P dataId storageType).2) := by
  refine .of_cell (Storage.cell_delete P _ dataId storageType) ?_ ?_ ?_
  all_goals unfold Cell.drop
  all_goals cases archives : storageType.archives
  all_goals simp +contextual [archives, local_gone]

theorem Effects.note (effects : Effects P gone s s') {records : List Record}
    (fine : ∀ record ∈ records, record.Fine ∧ ∀ id, record ≠ .restored id) :
    Effects P gone s (s'.note records) where
  __ := effects
  history := by
    obtain ⟨old, grown, fine'⟩ := effects.history
    refine ⟨old ++ records, by simp [Shared.note, grown], ?_⟩
    intro record mem
    exact (List.mem_append.mp mem).elim (fine' record) (fine record)

variable {storageType : ArchivalStorageType}

theorem Effects.remove (local_gone : storageType.archives = false → gone = some dataId)
    (marked : ∀ data ∈ s.manager.storage.retrieve P dataId storageType, data.isArchived = true) :
    Effects P gone s (remove P dataId storageType s) := by
  refine (Effects.delete dataId storageType local_gone).note ?_
  intro record mem
  obtain ⟨data, found, rfl⟩ := List.mem_map.mp mem
  exact ⟨marked data (Option.mem_toList.mp found), by simp⟩

theorem Effects.logAction (effects : Effects P gone s s') (entry : AuditEntry) :
    Effects P gone s (s'.logAction entry) := { effects with }

theorem Effects.logDeletion (effects : Effects P gone s s') (dataId : String) (data : RetainedData)
    (deleted : Bool) : Effects P gone s (s'.logDeletion config dataId data deleted) := by
  unfold Shared.logDeletion
  split
  · exact effects.logAction _
  · exact effects

/-- What was restored while the check ran is still found. -/
def Kept (P : Providers L A) (since : Nat) (s : Shared L A) : Prop :=
  ∀ id ∈ restoredSince since s.history, (retrieveData P id s.manager).isSome = true

theorem Effects.proceed (effects : Effects P none s s') (kept : Kept P since s)
    (result : CheckResult) (stage : Option CheckStage) :
    Effects P none s (proceed P since result s' stage).1 := by
  cases stage with
  | some stage => exact effects
  | none =>
    refine effects.note ?_
    intro record mem
    rw [List.mem_singleton] at mem
    subst mem
    refine ⟨?_, by simp⟩
    intro entry found
    obtain ⟨id, restored, rfl⟩ := List.mem_map.mp found
    exact effects.present id (by simp) (kept id (effects.restoredSince restored))

/-- The record that a restore has read and moves to the local provider. -/
def Pending.moved : Pending → Option RetainedData
  | .restore _ _ (.storing _ data) => some data
  | _ => none

variable (P) in
/-- What a turn needs of its call so that its effects are as above. -/
structure Ready (s : Shared L A) (call : Pending) : Prop where
  copies : Copies P s
  moved : ∀ data ∈ call.moved, data.isArchived = true
  inactive : ∀ id ∈ call.target, ∀ row ∈ retrieveData P id s.manager, row.isArchived = true
  kept : ∀ id ∈ call.spared s.history, (retrieveData P id s.manager).isSome = true
  returning : call.returning = none

theorem effects_turnRestore {actor : String} {stage : RestoreStage}
    (ready : Ready P s (.restore dataId actor stage)) :
    Effects P none s (turnRestore P config dataId actor s stage).1 := by
  cases stage with
  | retrieving | moving archivedData =>
    simp only [turnRestore]
    split <;> exact .of_eq rfl rfl
  | storing archivedData data =>
    have marked : data.isArchived = true := ready.moved data rfl
    simp only [turnRestore]
    split <;> exact .store marked .localStorage
  | clearing archivedData => exact .delete dataId .coldStorage nofun
  | finishing archivedData => cases ready.returning

variable {now : Instant} {rest : List RetainedData} {result : CheckResult}

theorem effects_turnArchive {stage : ArchiveStage}
    (ready : Ready P s (.check since result (.archiving dataId stage rest))) :
    Effects P none s (turnArchive rt P config now since result dataId rest s stage).1 := by
  have kept : Kept P since s := ready.kept
  cases stage with
  | retrieving =>
    simp only [turnArchive]
    split
    · exact (Effects.of_eq rfl rfl).proceed kept _ _
    · split
      · exact (Effects.of_eq rfl rfl).proceed kept _ _
      · exact .of_eq rfl rfl
  | storing data archivedAt =>
    simp only [turnArchive, archive]
    split
    · exact (Effects.of_eq rfl rfl).proceed kept _ _
    · rename_i stored storage succeeds
      split at succeeds
      · cases succeeds
      · cases succeeds
        exact .store rfl _
  | flagging data stored =>
    have marked : (flaggedData stored data).isArchived = true := rfl
    exact ((Effects.store marked .localStorage).logAction _).proceed kept _ _

theorem effects_turnDelete {stage : DeleteStage}
    (ready : Ready P s (.check since result (.deleting storageType dataId stage rest))) :
    Effects P (Pending.check since result (.deleting storageType dataId stage rest)).target s
      (turnDelete P config now since result storageType dataId rest s stage).1 := by
  have kept : Kept P since s := ready.kept
  cases stage with
  | retrieving =>
    simp only [turnDelete]
    split <;> exact .of_eq rfl rfl
  | retrievingArchived =>
    simp only [turnDelete]
    split
    · exact ((Effects.of_eq rfl rfl).proceed kept _ _).weaken
    · exact .of_eq rfl rfl
  | deletingLocal data => exact .remove (fun _ => rfl) (ready.inactive dataId rfl)
  | deletingCold data deletedLocal =>
    have removed : Effects P none s (remove P dataId .coldStorage s) :=
      .remove nofun (ready.copies dataId)
    simp only [turnDelete]
    split
    · exact (removed.logDeletion dataId data true).proceed kept _ _
    · exact removed
  | deletingEncrypted data deletedLocal =>
    have removed : Effects P none s (remove P dataId .encryptedArchive s) :=
      .remove nofun (ready.copies dataId)
    exact (removed.logDeletion dataId data _).proceed kept _ _

theorem effects_turn (ready : Ready P s call) :
    Effects P call.target s (turn rt P config now s call).1 := by
  cases call with
  | retrieve dataId | retrieved data | restored result | checked result => exact .of_eq rfl rfl
  | restore dataId actor stage => exact effects_turnRestore ready
  | check since result stage =>
    have kept : Kept P since s := ready.kept
    cases stage with
    | listingLocal | listing storageType => exact (Effects.of_eq rfl rfl).proceed kept _ _
    | archiving dataId stage rest => exact effects_turnArchive rt ready
    | deleting storageType dataId stage rest => exact effects_turnDelete ready

end Effects

/-! ### What a turn makes of its call -/

section Follows

variable {P} {config} {s : Shared L A} {now : Instant}

variable (P s) in
/-- A call deletes what it was about to delete or has just turned to, is still the same check,
and moves what it has read from the archive. -/
structure Follows (call next : Pending) : Prop where
  target : ∀ id ∈ next.target, id ∈ call.target ∨ id ∈ next.chosen
  spared : ∀ history, ∀ id ∈ next.spared history, id ∈ call.spared history
  moved : ∀ data ∈ next.moved, ∃ id, data ∈ (s.manager.storage.cell P id).archived

theorem Follows.returned {next : Pending} (target : next.target = none)
    (spared : ∀ history, next.spared history = []) (moved : next.moved = none) :
    Follows P s call next where
  target id mem := by
    rw [target] at mem
    cases mem
  spared history id mem := by
    rw [spared history] at mem
    cases mem
  moved data mem := by
    rw [moved] at mem
    cases mem

variable {stage : CheckStage} {since : Nat}

theorem Follows.check {result result' : CheckResult} {stage' : CheckStage}
    (target : ∀ id ∈ (Pending.check since result' stage').target,
      id ∈ (Pending.check since result stage).target ∨
      id ∈ (Pending.check since result' stage').chosen) :
    Follows P s (.check since result stage) (.check since result' stage') where
  target := target
  spared _ _ mem := mem
  moved data mem := by cases mem

variable (s' : Shared L A)

theorem Follows.archiveNext {result result' : CheckResult} (rest : List RetainedData) :
    Follows P s (.check since result stage)
      (proceed P since result' s' (archiveNext config now rest)).2 := by
  unfold Interleaving.archiveNext deletions
  split
  · split
    · exact .check nofun
    · exact .returned rfl (fun _ => rfl) rfl
  · exact .check nofun

theorem Follows.deleteNext {result result' : CheckResult} (storageType : ArchivalStorageType)
    (rest : List RetainedData) :
    Follows P s (.check since result stage)
      (proceed P since result' s' (deleteNext config now storageType rest)).2 := by
  unfold Interleaving.deleteNext
  split
  · split
    · exact .check nofun
    · exact .returned rfl (fun _ => rfl) rfl
  · exact .check fun id mem => .inr mem

theorem follows_turnRestore (dataId actor : String) (stage : RestoreStage) :
    Follows P s (.restore dataId actor stage) (turnRestore P config dataId actor s stage).2 := by
  cases stage with
  | retrieving | storing archivedData data =>
    simp only [turnRestore]
    split <;> exact .returned rfl (fun _ => rfl) rfl
  | moving archivedData =>
    simp only [turnRestore]
    split
    · exact .returned rfl (fun _ => rfl) rfl
    · rename_i data found
      refine ⟨nofun, nofun, fun moved mem => ?_⟩
      cases mem
      exact ⟨dataId, found⟩
  | clearing archivedData | finishing archivedData => exact .returned rfl (fun _ => rfl) rfl

variable (since : Nat) (result : CheckResult)

theorem follows_turnArchive (dataId : String) (rest : List RetainedData) (stage : ArchiveStage) :
    Follows P s (.check since result (.archiving dataId stage rest))
      (turnArchive rt P config now since result dataId rest s stage).2 := by
  cases stage with
  | retrieving =>
    simp only [turnArchive]
    split
    · exact .archiveNext s rest
    · split
      · exact .archiveNext s rest
      · exact .check nofun
  | storing data archivedAt =>
    simp only [turnArchive]
    split
    · exact .archiveNext s rest
    · exact .check nofun
  | flagging data stored => exact .archiveNext _ rest

theorem follows_turnDelete (storageType : ArchivalStorageType)
    (dataId : String) (rest : List RetainedData) (stage : DeleteStage) :
    Follows P s (.check since result (.deleting storageType dataId stage rest))
      (turnDelete P config now since result storageType dataId rest s stage).2 := by
  cases stage with
  | retrieving =>
    simp only [turnDelete]
    split <;> exact .check fun id mem => .inl mem
  | retrievingArchived =>
    simp only [turnDelete]
    split
    · exact .deleteNext s storageType rest
    · exact .check fun id mem => .inl mem
  | deletingLocal data => exact .check nofun
  | deletingCold data deletedLocal =>
    simp only [turnDelete]
    split
    · exact .deleteNext _ storageType rest
    · exact .check nofun
  | deletingEncrypted data deletedLocal => exact .deleteNext _ storageType rest

theorem follows_turn (call : Pending) : Follows P s call (turn rt P config now s call).2 := by
  cases call with
  | retrieve dataId | retrieved data | restored result | checked result =>
    exact .returned rfl (fun _ => rfl) rfl
  | restore dataId actor stage => exact follows_turnRestore dataId actor stage
  | check since result stage =>
    cases stage with
    | listingLocal => exact .archiveNext s _
    | archiving dataId stage rest => exact follows_turnArchive rt since result dataId rest stage
    | listing storageType => exact .deleteNext s storageType _
    | deleting storageType dataId stage rest =>
      exact follows_turnDelete since result storageType dataId rest stage

end Follows

/-! ### Every interleaving -/

section Invariant

variable {P}

variable (P) in
/-- What holds between the calls of an undisturbed run. -/
structure Sparing (s : State L A) : Prop where
  copies : Copies P s.1
  moved : ∀ call ∈ s.2, ∀ data ∈ call.moved, data.isArchived = true
  unrestored : ∀ call ∈ s.2, ∀ id ∈ call.target, Unrestored P s id
  kept : ∀ call ∈ s.2, ∀ id ∈ call.spared s.1.history, (retrieveData P id s.1.manager).isSome = true
  spares : Spares s

variable {s : State L A} {s' : Shared L A} {gone : Option String} {call : Pending}

theorem Effects.spared {s : Shared L A} (effects : Effects P gone s s') {id : String}
    (mem : id ∈ call.spared s'.history) : id ∈ call.spared s.history := by
  cases call with
  | check since result stage => exact effects.restoredSince mem
  | _ => cases mem

variable (P s) in
/-- The calls after a step: each is to delete what was to be deleted or may be, and the checks
among them are those that were under way. -/
structure Succeeds (calls : List Pending) : Prop where
  moved : ∀ next ∈ calls, ∀ data ∈ next.moved, data.isArchived = true
  target : ∀ next ∈ calls, ∀ id ∈ next.target, Unrestored P s id
  spared : ∀ next ∈ calls, ∀ id ∈ next.spared s.1.history, ∃ call ∈ s.2, id ∈ call.spared s.1.history

theorem Sparing.of_effects (sparing : Sparing P s) (effects : Effects P gone s.1 s')
    {calls : List Pending} (succeeds : Succeeds P s calls)
    (unspared : ∀ id ∈ gone, Unrestored P s id) : Sparing P (s', calls) where
  copies id copy held := (effects.copies id copy held).elim (sparing.copies id copy) fun marked => marked
  moved := succeeds.moved
  unrestored next mem id aimed := by
    have old := succeeds.target next mem id aimed
    refine ⟨fun row found => (effects.active id row found).elim (old.inactive row) fun marked => marked, ?_⟩
    intro other among restored
    obtain ⟨call, under_way, spared⟩ := succeeds.spared other among id (effects.spared restored)
    exact old.unspared call under_way spared
  kept next mem id restored := by
    obtain ⟨call, under_way, spared⟩ := succeeds.spared next mem id (effects.spared restored)
    refine effects.present id (fun lost => ?_) (sparing.kept call under_way id spared)
    exact (unspared id lost).unspared call under_way spared
  spares := by
    obtain ⟨records, grown, fine⟩ := effects.history
    intro record mem
    change record ∈ s'.history at mem
    rw [grown] at mem
    exact (List.mem_append.mp mem).elim (sparing.spares record) fun new => (fine record new).1

theorem Sparing.start (sparing : Sparing P s) (effects : Effects P none s.1 s')
    (moved : call.moved = none) (target : call.target = none)
    (spared : call.spared s.1.history = []) : Sparing P (s', s.2 ++ [call]) := by
  refine sparing.of_effects effects ⟨?_, ?_, ?_⟩ nofun
  · exact forall_mem_concat sparing.moved (by simp [moved])
  · exact forall_mem_concat sparing.unrestored (by simp [target])
  · exact forall_mem_concat (fun next old id restored => ⟨next, old, restored⟩) (by simp [spared])

theorem restoredSince_length (history : List Record) : restoredSince history.length history = [] := by
  rw [restoredSince, List.drop_length, List.filterMap_nil]

theorem Sparing.startCheck (sparing : Sparing P s) :
    Sparing P ((startCheck P config s.1).1, s.2 ++ [(startCheck P config s.1).2]) := by
  have kept : Kept P s.1.history.length s.1 := by
    rw [Kept, restoredSince_length]
    nofun
  unfold Interleaving.startCheck
  split
  · exact sparing.start (.of_eq rfl rfl) rfl rfl rfl
  · refine sparing.start ((Effects.of_eq rfl rfl).proceed kept _ _) ?_ ?_ ?_
    all_goals
      unfold deletions
      split
      · first | rfl | exact restoredSince_length s.1.history
      · split <;> first | rfl | exact restoredSince_length s.1.history

theorem Sparing.turn (sparing : Sparing P s) {i : Nat} {now : Instant} (found : s.2[i]? = some call)
    (returning : call.returning = none)
    (chosen : ∀ id ∈ (turn rt P config now s.1 call).2.chosen, Unrestored P s id) :
    Sparing P ((turn rt P config now s.1 call).1, s.2.set i (turn rt P config now s.1 call).2) := by
  have under_way : call ∈ s.2 := List.mem_of_getElem? found
  have follows : Follows P s.1 call (Interleaving.turn rt P config now s.1 call).2 := follows_turn rt call
  have effects : Effects P call.target s.1 (Interleaving.turn rt P config now s.1 call).1 :=
    effects_turn rt ⟨sparing.copies, sparing.moved call under_way,
      fun id aimed => (sparing.unrestored call under_way id aimed).inactive,
      sparing.kept call under_way, returning⟩
  refine sparing.of_effects effects ⟨?_, ?_, ?_⟩ fun id aimed => sparing.unrestored call under_way id aimed
  · refine forall_mem_set sparing.moved (fun data held => ?_) i
    obtain ⟨id, copy⟩ := follows.moved data held
    exact sparing.copies id data copy
  · refine forall_mem_set sparing.unrestored (fun id aimed => ?_) i
    exact (follows.target id aimed).elim (sparing.unrestored call under_way id) (chosen id)
  · exact forall_mem_set (fun next old id restored => ⟨next, old, restored⟩)
      (fun id restored => ⟨call, under_way, follows.spared _ id restored⟩) i

/-- A restore puts its record back while no check is about to delete it. -/
theorem Sparing.finish (sparing : Sparing P s) (data : RetainedData)
    (cell : ∀ id, s'.manager.storage.cell P id = if id = data.id then
      (s.1.manager.storage.cell P id).put data .localStorage else s.1.manager.storage.cell P id)
    (history : s'.history = s.1.history ++ [.restored data.id])
    (alone : ∀ other ∈ s.2, data.id ∉ other.target) (i : Nat) (result : Except String RetainedData) :
    Sparing P (s', s.2.set i (.restored result)) := by
  have elsewhere : ∀ id, id ≠ data.id → retrieveData P id s'.manager = retrieveData P id s.1.manager := by
    intro id other
    have same := congrArg Cell.active (cell id)
    rwa [if_neg other] at same
  have here : retrieveData P data.id s'.manager = some data := by
    have stored := congrArg Cell.active (cell data.id)
    rwa [if_pos rfl] at stored
  have spared : ∀ call : Pending, ∀ id ∈ call.spared s'.history,
      id ∈ call.spared s.1.history ∨ id = data.id := by
    intro call id mem
    cases call with
    | check since result stage =>
      rw [history] at mem
      refine (mem_restoredSince_append mem).imp (fun old => old) fun new => ?_
      cases List.mem_singleton.mp new
      rfl
    | _ => cases mem
  refine ⟨?_, ?_, ?_, ?_, ?_⟩
  · intro id copy held
    rw [cell id] at held
    split at held
    · exact sparing.copies id copy held
    · exact sparing.copies id copy held
  · exact forall_mem_set sparing.moved (fun _ held => by cases held) i
  · intro next mem id aimed
    rcases List.mem_or_eq_of_mem_set mem with old | rfl
    · have unrestored := sparing.unrestored next old id aimed
      have other : id ≠ data.id := fun same => alone next old (same ▸ aimed)
      refine ⟨?_, ?_⟩
      · rw [elsewhere id other]
        exact unrestored.inactive
      · intro call among restored
        rcases List.mem_or_eq_of_mem_set among with before | rfl
        · exact (spared call id restored).elim (unrestored.unspared call before) other
        · cases restored
    · cases aimed
  · intro next mem id restored
    rcases List.mem_or_eq_of_mem_set mem with old | rfl
    · by_cases same : id = data.id
      · rw [same, here]
        rfl
      · rw [elsewhere id same]
        exact sparing.kept next old id ((spared next id restored).resolve_right same)
    · cases restored
  · intro record mem
    change record ∈ s'.history at mem
    rw [history] at mem
    exact forall_mem_concat sparing.spares (by trivial) record mem

theorem Sound.begin {m : Manager L A} (sound : Sound P m) : Sparing P (begin m) where
  copies id copy held := ((sound id).archived copy held).1
  moved _ mem := absurd mem List.not_mem_nil
  unrestored _ mem := absurd mem List.not_mem_nil
  kept _ mem := absurd mem List.not_mem_nil
  spares _ mem := absurd mem List.not_mem_nil

theorem Sparing.step (sparing : Sparing P s) {event : Event}
    (undisturbed : Undisturbed rt P config s event) : Sparing P (step rt P config s event) := by
  cases event with
  | retrieveData dataId
  | restoreArchivedData dataId actor => exact sparing.start (.of_eq rfl rfl) rfl rfl rfl
  | runRetentionChecks => exact sparing.startCheck config
  | turn i now =>
    change Sparing P (resumeAt _ i s)
    cases found : s.2[i]? with
    | none => rwa [resumeAt_of_none found]
    | some call =>
      obtain ⟨alone, chosen⟩ := undisturbed call found
      rw [resumeAt_of_some found]
      cases returning : call.returning with
      | none => exact sparing.turn rt config found returning chosen
      | some id =>
        -- Only the last turn of a restore puts a record back.
        obtain ⟨dataId, actor, archivedData, rfl⟩ := eq_finishing_of_returning returning
        cases returning
        exact sparing.finish (restoredData archivedData)
          (Storage.cell_store P s.1.manager.storage _ .localStorage) rfl (alone _ rfl) i _

end Invariant

/-- However calls of `runRetentionChecks`, `restoreArchivedData` and `retrieveData` interleave: as
long as no restore puts a record back that a check is about to delete, and no check turns to a
record that is active or was restored while a check was under way, the checks delete archived
records only, and what was restored while a check ran is found when it ends. -/
theorem checks_spare_restored {m : Manager L A} (vacant : Vacant P m) (calls : List Call)
    {events : List Event}
    (undisturbed : Along (step rt P config) (Undisturbed rt P config)
      (begin (run (Retention.step rt P config) m calls)) events) :
    ∀ initial, initial <+: events →
      Spares (run (step rt P config) (begin (run (Retention.step rt P config) m calls)) initial) := by
  intro initial part
  have start : Sparing P (begin (run (Retention.step rt P config) m calls)) :=
    Sound.begin (sound_run rt P config vacant calls)
  exact ((undisturbed.of_prefix part).invariant
    (fun _ _ sparing undisturbed => sparing.step rt config undisturbed) start).spares

end Runs

/-! ### A restore inside a check -/

/-- The day of the check, 31 days after the document was archived. -/
def checkDay : Instant := day ⟨121, by decide⟩

/-- A check and a restore of the document are started, and the check lists the local data. -/
def bothStarted : List Event :=
  [.runRetentionChecks, .restoreArchivedData documentId "user", .turn 0 checkDay]

def restoreRuns : List Event := List.replicate 5 (.turn 1 checkDay)

/-- The restore runs when the check has listed cold storage. -/
def restoreInsideCheck : List Event :=
  bothStarted ++ [.turn 0 checkDay] ++ restoreRuns ++ List.replicate 5 (.turn 0 checkDay)

/-- The check deletes the document after its restore has completed. -/
theorem restored_document_deleted :
    retrieveData memoryProviders documentId (run (step memoryRuntime memoryProviders memoryConfig)
        (begin (reachedBy (archiveDocument .coldStorage))) restoreInsideCheck).1.manager = none ∧
      ¬ Spares (run (step memoryRuntime memoryProviders memoryConfig)
        (begin (reachedBy (archiveDocument .coldStorage))) restoreInsideCheck) := by
  unfold Spares
  decide +kernel

/-- The restore runs before the check lists cold storage. -/
def restoreBeforeListing : List Event :=
  bothStarted ++ restoreRuns ++ List.replicate 2 (.turn 0 checkDay)

theorem document_restored_first :
    Spares (run (step memoryRuntime memoryProviders memoryConfig)
      (begin (reachedBy (archiveDocument .coldStorage))) restoreBeforeListing) :=
  checks_spare_restored memoryRuntime memoryProviders memoryConfig vacant_memoryManager
    (archiveDocument .coldStorage) (by decide +kernel) _ List.prefix_rfl

end TalentTrust.Retention.Interleaving
