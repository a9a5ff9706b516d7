import TalentTrust.Retention.Policies
import TalentTrust.Lib.Keyed

/-!
`retention/archival.ts` and `retention/index.ts`: archiving, restoring and deleting
retained data.

The clock is read once for each operation, and the ids of new records are drawn.
After the definitions stands what each operation does to the cell of an id: a due
record is archived (`archiveCell`), an archived one comes back (`restoreCell`), a
deletion empties the cell. `runRetentionChecks` archives and deletes in loops over the
providers, and does to every cell what `archiveCell` and `expireCell` do to it
(`cell_runRetentionChecks`).
-/

namespace TalentTrust.Retention

open TalentTrust.Lib

/-- The parts of a date that the archive path shows: `getUTCFullYear()` and the month of
`getUTCMonth()`, from 1, in two digits. -/
structure Runtime where
  utcYear : Date → String
  utcMonth : Date → String

/-- The fields of `RetentionConfig` that are read. -/
structure RetentionConfig where
  enabled : Bool
  automaticArchival : Bool
  automaticDeletion : Bool
  postArchivalRetentionDays : Nat
  complianceStandard : String
  encryptionEnabled : Bool
  deriving DecidableEq

inductive RetentionAction where
  | create
  | update
  | archive
  | delete
  | restore
  | policyApplied
  | retentionExpired
  deriving DecidableEq, Repr

/-- An entry of the compliance audit log. -/
structure AuditEntry where
  entityId : String
  entityType : DataEntityType
  action : RetentionAction
  actor : String
  compliance : String
  deriving DecidableEq

structure Manager (L A : Type) where
  storage : Storage L A
  engine : PolicyEngine
  audit : List AuditEntry

variable {L A : Type}

/-- `logAction`; no standard is the general one. The proof of an entry is left out: it takes its
secret from the environment, which was validated at the start and is not changed here. -/
def Manager.logAction (m : Manager L A) (entry : AuditEntry) : Manager L A :=
  { m with audit := m.audit ++
      [{ entry with compliance := if entry.compliance = "" then "GENERAL" else entry.compliance }] }

section Operations

variable (rt : Runtime) (P : Providers L A) (config : RetentionConfig) (now : Instant)

/-! ### The archival service -/

def shouldEncryptArchive (encryptionEnabled : Bool) (classification : DataClassification)
    (policyRequires : Bool) : Bool :=
  encryptionEnabled &&
    (classification = .restricted || classification = .confidential || policyRequires)

def generateArchiveLocation (data : RetainedData) (storageType : ArchivalStorageType) : String :=
  let timestamp := data.archivedAt.getD now.date
  "/archive/" ++ storageType.text ++ "/" ++ data.entityType.text ++ "/" ++ rt.utcYear timestamp ++
    "/" ++ rt.utcMonth timestamp ++ "/" ++ data.id

variable (engine : PolicyEngine) (data : RetainedData)

/-- Where the policy of a record sends its archive. -/
def archivalStorageType : ArchivalStorageType :=
  ((engine.policyOf data.retentionPolicyId).map (·.archivalType)).getD .coldStorage

def archiveEncrypted : Bool :=
  shouldEncryptArchive config.encryptionEnabled data.classification
    (((engine.policyOf data.retentionPolicyId).map (·.encryptArchive)).getD true)

/-- The record that goes to the archive. -/
def archivedCopy : RetainedData :=
  { data with
    isArchived := true
    archivedAt := some now.date
    archivedLocation :=
      some (generateArchiveLocation rt now data (archivalStorageType engine data))
    metadata :=
      some (setEntry "encrypted" (.bool (archiveEncrypted config engine data))
        (data.metadata.getD [])) }

structure ArchivalResult where
  success : Bool
  dataId : String
  archivedAt : Date
  location : String
  encrypted : Bool
  deriving DecidableEq

/-- `DataArchivalService.archiveData`. -/
def archive (s : Storage L A) : Except String (ArchivalResult × Storage L A) :=
  if data.isArchived then .error ("Data " ++ data.id ++ " is already archived")
  else
    let stored := s.store P (archivedCopy rt config now engine data) (archivalStorageType engine data)
    .ok (⟨true, data.id, now.date, stored.1, archiveEncrypted config engine data⟩, stored.2)

/-- The record as it is before it was archived. -/
def restoredData : RetainedData :=
  { data with isArchived := false, archivedAt := none, archivedLocation := none }

/-- `DataArchivalService.restoreArchivedData`, from its default location. -/
def restore (dataId : String) (s : Storage L A) : Except String RetainedData × Storage L A :=
  match s.retrieve P dataId .coldStorage with
  | none => (.error ("Archived data not found: " ++ dataId), s)
  | some archivedData =>
    match s.moveData P dataId .coldStorage .localStorage with
    | (false, s) => (.error ("Failed to restore data " ++ dataId ++ " from archive"), s)
    | (true, s) => (.ok (restoredData archivedData), s)

/-! ### The manager -/

structure DataInput where
  entityType : DataEntityType
  data : Json
  classification : DataClassification
  createdAt : Date
  metadata : Option (List (String × Json))
  deriving DecidableEq

/-- `generateDataId`, from the part that is drawn. -/
def generateDataId (random : String) : String := "data_" ++ toString now.ms ++ "_" ++ random

variable (input : DataInput) (policyId : Option String)

def newData (id : String) : RetainedData where
  id := id
  entityType := input.entityType
  data := input.data
  classification := input.classification
  createdAt := input.createdAt
  expiresAt := engine.calculateExpirationDate input.entityType policyId input.createdAt
  archivedAt := none
  archivedLocation := none
  isArchived := false
  retentionPolicyId := policyId
  metadata := input.metadata

def storeData (actor random : String)
    (m : Manager L A) : RetainedData × Option RetentionPolicy × Manager L A :=
  let data := newData m.engine input policyId (generateDataId now random)
  let stored := { m with storage := (m.storage.store P data .localStorage).2 }
  (data, m.engine.policyOf policyId,
    stored.logAction ⟨data.id, data.entityType, .create, actor, config.complianceStandard⟩)

def retrieveData (dataId : String) (m : Manager L A) : Option RetainedData :=
  m.storage.retrieve P dataId .localStorage

def createRetentionPolicy (policy : PolicyConfig) (id : String) (m : Manager L A) :
    Except String RetentionPolicy × Manager L A :=
  match m.engine.createPolicy policy id now with
  | .error message => (.error message, m)
  | .ok (policy, engine) =>
    (.ok policy,
      { m with engine := engine }.logAction
        ⟨policy.id, .contract, .policyApplied, "system", config.complianceStandard⟩)

def setDefaultPolicy (entityType : DataEntityType) (policyId : String) (m : Manager L A) :
    Except String Unit × Manager L A :=
  match m.engine.setDefaultPolicyForEntityType entityType policyId with
  | .error message => (.error message, m)
  | .ok engine => (.ok (), { m with engine := engine })

/-- What `archiveData` returns. -/
structure ArchiveOutcome where
  success : Bool
  archivedAt : Date
  location : String
  deriving DecidableEq

/-- The local record of archived data. -/
def flaggedData (result : ArchivalResult) (data : RetainedData) : RetainedData :=
  { data with
    isArchived := true
    archivedAt := some result.archivedAt
    archivedLocation := some result.location }

def archiveData (dataId actor : String) (m : Manager L A) :
    Except String ArchiveOutcome × Manager L A :=
  match retrieveData P dataId m with
  | none => (.error ("Data not found: " ++ dataId), m)
  | some data =>
    if data.isArchived then (.error ("Data " ++ dataId ++ " is already archived"), m)
    else if shouldArchive now data = false then
      (.error ("Data " ++ dataId ++ " does not meet archival criteria"), m)
    else
      match archive rt P config now m.engine data m.storage with
      | .error message => (.error ("Failed to archive data: " ++ message), m)
      | .ok (result, storage) =>
        let flagged := storage.store P (flaggedData result data) .localStorage
        (.ok ⟨result.success, result.archivedAt, result.location⟩,
          { m with storage := flagged.2 }.logAction
            ⟨dataId, data.entityType, .archive, actor, config.complianceStandard⟩)

def restoreArchivedData (dataId actor : String) (m : Manager L A) :
    Except String RetainedData × Manager L A :=
  match restore P dataId m.storage with
  | (.error message, storage) => (.error message, { m with storage := storage })
  | (.ok restored, storage) =>
    (.ok restored,
      { m with storage := (storage.store P restored .localStorage).2 }.logAction
        ⟨dataId, restored.entityType, .restore, actor, config.complianceStandard⟩)

/-- The deletion from both providers: whether a record was deleted. -/
def deleteFromBoth (dataId : String) (s : Storage L A) : Bool × Storage L A :=
  let (deletedLocal, s) := s.delete P dataId .localStorage
  let (deletedCold, s) := s.delete P dataId .coldStorage
  let (deletedArchive, s) := if deletedCold then (true, s) else s.delete P dataId .encryptedArchive
  (deletedLocal || deletedArchive, s)

def deleteData (dataId actor : String) (m : Manager L A) : Except String Bool × Manager L A :=
  match (retrieveData P dataId m).or (m.storage.retrieve P dataId .coldStorage) with
  | none => (.error ("Data not found: " ++ dataId), m)
  | some data =>
    match deleteFromBoth P dataId m.storage with
    | (true, storage) =>
      (.ok true,
        { m with storage := storage }.logAction
          ⟨dataId, data.entityType, .delete, actor, config.complianceStandard⟩)
    | (false, storage) => (.ok false, { m with storage := storage })

structure CheckResult where
  archived : Nat
  deleted : Nat
  failed : Nat
  deriving DecidableEq

variable (acc : CheckResult × Manager L A)

/-- One turn of the loop over local data. -/
def archiveStep (data : RetainedData) : CheckResult × Manager L A :=
  if !data.isArchived && shouldArchive now data then
    match archiveData rt P config now data.id "system-autoprocess" acc.2 with
    | (.ok _, m) => ({ acc.1 with archived := acc.1.archived + 1 }, m)
    | (.error _, m) => ({ acc.1 with failed := acc.1.failed + 1 }, m)
  else acc

/-- One turn of the loop over archived data. -/
def deleteStep (data : RetainedData) : CheckResult × Manager L A :=
  if data.isArchived && shouldPermanentlyDelete config.postArchivalRetentionDays now data then
    match deleteData P config data.id "system-autoprocess" acc.2 with
    | (.ok _, m) => ({ acc.1 with deleted := acc.1.deleted + 1 }, m)
    | (.error _, m) => ({ acc.1 with failed := acc.1.failed + 1 }, m)
  else acc

def archiveLocal : CheckResult × Manager L A :=
  (acc.2.storage.list P .localStorage).foldl (archiveStep rt P config now) acc

def deleteFrom (storageType : ArchivalStorageType) (acc : CheckResult × Manager L A) :
    CheckResult × Manager L A :=
  (acc.2.storage.list P storageType).foldl (deleteStep P config now) acc

def runRetentionChecks (m : Manager L A) : CheckResult × Manager L A :=
  if config.enabled = false then (⟨0, 0, 0⟩, m)
  else
    let acc : CheckResult × Manager L A := (⟨0, 0, 0⟩, m)
    let acc := if config.automaticArchival then archiveLocal rt P config now acc else acc
    if config.automaticDeletion then
      deleteFrom P config now .encryptedArchive (deleteFrom P config now .coldStorage acc)
    else acc

end Operations

/-! ### What the operations do to a cell -/

section Cells

variable (rt : Runtime) (P : Providers L A) (config : RetentionConfig) (now : Instant)
  (m : Manager L A)

@[simp] theorem storage_logAction (entry : AuditEntry) : (m.logAction entry).storage = m.storage := rfl

theorem cell_storeData (input : DataInput) (policyId : Option String) (actor random id : String) :
    (storeData P config now input policyId actor random m).2.2.storage.cell P id =
      if id = generateDataId now random then
        { m.storage.cell P id with active := some (newData m.engine input policyId id) }
      else m.storage.cell P id := by
  have named : (newData m.engine input policyId (generateDataId now random)).id =
    generateDataId now random := rfl
  simp only [storeData, storage_logAction, Storage.cell_store, named]
  refine ite_congr rfl (fun here => ?_) fun _ => rfl
  rw [← here]
  rfl

def archiveResult (engine : PolicyEngine) (data : RetainedData) : ArchivalResult :=
  ⟨true, data.id, now.date, data.id, archiveEncrypted config engine data⟩

theorem archive_eq {data : RetainedData} (active : data.isArchived = false) (engine : PolicyEngine)
    (s : Storage L A) :
    archive rt P config now engine data s =
      .ok (archiveResult config now engine data,
        (s.store P (archivedCopy rt config now engine data) (archivalStorageType engine data)).2) := by
  have location : (s.store P (archivedCopy rt config now engine data)
      (archivalStorageType engine data)).1 = data.id := by
    unfold Storage.store
    split <;> rfl
  simp [archive, active, location, archiveResult]

def archivedCell (engine : PolicyEngine) (data : RetainedData) (c : Cell) : Cell :=
  (c.put (archivedCopy rt config now engine data) (archivalStorageType engine data)).put
    (flaggedData (archiveResult config now engine data) data) .localStorage

variable (acc : CheckResult × Manager L A) (engine : PolicyEngine) (data : RetainedData)
  (id : String) (c : Cell)

theorem active_archivedCell :
    (archivedCell rt config now engine data c).active =
      some (flaggedData (archiveResult config now engine data) data) := rfl

theorem archived_archivedCell :
    (archivedCell rt config now engine data c).archived =
      if (archivalStorageType engine data).archives then some (archivedCopy rt config now engine data)
      else c.archived := by
  change (c.put (archivedCopy rt config now engine data) (archivalStorageType engine data)).archived = _
  unfold Cell.put
  split <;> rfl

/-- A record that is due is archived. -/
def archiveCell : Cell :=
  match c.active with
  | none => c
  | some data => if shouldArchive now data then archivedCell rt config now engine data c else c

theorem archiveData_of_due {id : String} {data : RetainedData}
    (found : (m.storage.cell P id).active = some data) (due : shouldArchive now data = true)
    (actor : String) :
    (archiveData rt P config now id actor m).1 = .ok ⟨true, now.date, data.id⟩ ∧
      (archiveData rt P config now id actor m).2.engine = m.engine ∧
      (archiveData rt P config now id actor m).2.storage =
        (((m.storage.store P (archivedCopy rt config now m.engine data)
            (archivalStorageType m.engine data)).2).store P
          (flaggedData (archiveResult config now m.engine data) data) .localStorage).2 := by
  have active : data.isArchived = false := isArchived_of_shouldArchive due
  have read : retrieveData P id m = some data := found
  simp only [archiveData, read, active, due, archive_eq, Bool.false_eq_true,
    Bool.true_eq_false, if_false]
  exact ⟨rfl, rfl, rfl⟩

theorem archiveData_of_not_due {id : String}
    (refused : ∀ data, (m.storage.cell P id).active = some data → shouldArchive now data = false)
    (actor : String) :
    ∃ message, archiveData rt P config now id actor m = (.error message, m) := by
  unfold archiveData
  cases read : retrieveData P id m with
  | none => exact ⟨_, rfl⟩
  | some data =>
    simp only [refused data read, if_true]
    split <;> exact ⟨_, rfl⟩

theorem due_or_not :
    (∃ data, c.active = some data ∧ shouldArchive now data = true) ∨
      ∀ data, c.active = some data → shouldArchive now data = false := by
  cases c.active with
  | none =>
    right
    intro data found
    cases found
  | some data => cases due : shouldArchive now data <;> simp [due]

theorem engine_archiveData (actor : String) :
    (archiveData rt P config now id actor m).2.engine = m.engine := by
  rcases due_or_not now (m.storage.cell P id) with ⟨data, found, due⟩ | refused
  · exact (archiveData_of_due rt P config now m found due actor).2.1
  · obtain ⟨message, next⟩ := archiveData_of_not_due rt P config now m refused actor
    rw [next]

theorem archiveCell_of_due {c : Cell} {data : RetainedData} (found : c.active = some data)
    (due : shouldArchive now data = true) (engine : PolicyEngine) :
    archiveCell rt config now engine c = archivedCell rt config now engine data c := by
  simp [archiveCell, found, due]

theorem archiveCell_of_not_due {c : Cell}
    (refused : ∀ data, c.active = some data → shouldArchive now data = false)
    (engine : PolicyEngine) : archiveCell rt config now engine c = c := by
  unfold archiveCell
  cases found : c.active with
  | none => rfl
  | some data => simp [refused data found]

theorem cell_archiveData (dataId actor id : String) :
    (archiveData rt P config now dataId actor m).2.storage.cell P id =
      if id = dataId then archiveCell rt config now m.engine (m.storage.cell P id)
      else m.storage.cell P id := by
  rcases due_or_not now (m.storage.cell P dataId) with ⟨data, found, due⟩ | refused
  · have named : data.id = dataId := m.storage.id_of_active P found
    have copied : (archivedCopy rt config now m.engine data).id = dataId := named
    have flagged : (flaggedData (archiveResult config now m.engine data) data).id = dataId := named
    rw [(archiveData_of_due rt P config now m found due actor).2.2, Storage.cell_store,
      Storage.cell_store, copied, flagged]
    split
    · rename_i here
      subst here
      rw [archiveCell_of_due rt config now found due]
      rfl
    · rfl
  · obtain ⟨message, next⟩ := archiveData_of_not_due rt P config now m refused actor
    rw [next]
    split
    · rename_i here
      subst here
      rw [archiveCell_of_not_due rt config now refused]
    · rfl

/-- A record comes back from the archive. -/
def restoreCell : Cell :=
  match c.archived with
  | none => c
  | some data =>
    -- The move stores the record and stops where its id is empty.
    if data.id = "" then { c with active := some data } else ⟨some (restoredData data), none⟩

theorem restore_of_archived {id : String} {data : RetainedData} {s : Storage L A}
    (found : (s.cell P id).archived = some data) :
    restore P id s =
      if data.id = "" then
        (.error ("Failed to restore data " ++ id ++ " from archive"), (s.store P data .localStorage).2)
      else
        (.ok (restoredData data), ((s.store P data .localStorage).2.delete P id .coldStorage).2) := by
  have read : s.retrieve P id .coldStorage = some data := found
  have stored : (s.store P data .localStorage).1 = data.id := rfl
  simp only [restore, Storage.moveData, read, stored]
  by_cases empty : data.id = ""
  · simp [if_pos empty]
  · simp [if_neg empty]

theorem restoreArchivedData_of_archived {id : String} {data : RetainedData}
    (found : (m.storage.cell P id).archived = some data) (named : id ≠ "") (actor : String) :
    (restoreArchivedData P config id actor m).1 = .ok (restoredData data) := by
  have same : data.id = id := m.storage.id_of_archived P found
  rw [restoreArchivedData, restore_of_archived P found, same, if_neg named]

theorem restoreArchivedData_of_none {id : String} (missing : (m.storage.cell P id).archived = none)
    (actor : String) :
    restoreArchivedData P config id actor m = (.error ("Archived data not found: " ++ id), m) := by
  have read : m.storage.retrieve P id .coldStorage = none := missing
  simp [restoreArchivedData, restore, read]

theorem cell_restoreArchivedData (dataId actor id : String) :
    (restoreArchivedData P config dataId actor m).2.storage.cell P id =
      if id = dataId then restoreCell (m.storage.cell P id) else m.storage.cell P id := by
  cases found : (m.storage.cell P dataId).archived with
  | none =>
    rw [restoreArchivedData_of_none P config m found]
    split
    · rename_i here
      subst here
      simp [restoreCell, found]
    · rfl
  | some data =>
    have named : data.id = dataId := m.storage.id_of_archived P found
    have restored : (restoredData data).id = dataId := named
    rw [restoreArchivedData, restore_of_archived P found]
    by_cases empty : data.id = ""
    · rw [if_pos empty]
      rw [Storage.cell_store, named]
      split
      · rename_i here
        subst here
        simp [restoreCell, found, empty, Cell.put, ArchivalStorageType.archives]
      · rfl
    · rw [if_neg empty]
      rw [storage_logAction]
      rw [Storage.cell_store, Storage.cell_delete, Storage.cell_store, named, restored]
      split
      · rename_i here
        subst here
        simp [restoreCell, found, empty, Cell.put, Cell.drop, ArchivalStorageType.archives]
      · rfl

theorem cell_deleteFromBoth (s : Storage L A) (dataId id : String) :
    (deleteFromBoth P dataId s).2.cell P id =
      if id = dataId then ⟨none, none⟩ else s.cell P id := by
  unfold deleteFromBoth
  dsimp only
  split
  all_goals
    simp only [Storage.cell_delete]
    split
    · simp [Cell.drop, ArchivalStorageType.archives]
    · rfl

theorem engine_deleteData (actor : String) :
    (deleteData P config id actor m).2.engine = m.engine := by
  unfold deleteData
  split
  · rfl
  · split <;> rfl

theorem cell_deleteData (dataId actor id : String) :
    (deleteData P config dataId actor m).2.storage.cell P id =
      if id = dataId then ⟨none, none⟩ else m.storage.cell P id := by
  rw [← cell_deleteFromBoth]
  unfold deleteData
  split
  · rename_i missing
    obtain ⟨noLocal, noArchive⟩ := Option.or_eq_none_iff.mp missing
    rw [cell_deleteFromBoth]
    split
    · rename_i here
      subst here
      exact congrArg₂ Cell.mk noLocal noArchive
    · rfl
  · split <;> (rename_i deleted; simp [deleted])

/-! ### Retention checks -/

/-- What the loops read and change of an id: the policies, and the cell. -/
def checkView : PolicyEngine × Cell :=
  (acc.2.engine, acc.2.storage.cell P id)

theorem archiveCell_archivedCell :
    archiveCell rt config now engine (archivedCell rt config now engine data c) =
      archivedCell rt config now engine data c := by
  refine archiveCell_of_not_due rt config now ?_ engine
  intro flagged found
  cases found
  rfl

theorem archiveCell_archiveCell :
    archiveCell rt config now engine (archiveCell rt config now engine c) =
      archiveCell rt config now engine c := by
  rcases due_or_not now c with ⟨data, found, due⟩ | refused
  · rw [archiveCell_of_due rt config now found due, archiveCell_archivedCell]
  · rw [archiveCell_of_not_due rt config now refused, archiveCell_of_not_due rt config now refused]

theorem snd_archiveStep :
    (archiveStep rt P config now acc data).2 =
      if shouldArchive now data then
        (archiveData rt P config now data.id "system-autoprocess" acc.2).2
      else acc.2 := by
  have chosen : (!data.isArchived && shouldArchive now data) = shouldArchive now data := by
    unfold shouldArchive
    cases data.isArchived <;> rfl
  unfold archiveStep
  rw [chosen]
  split
  · split <;> (rename_i ended; rw [ended])
  · rfl

theorem checkView_archiveStep :
    checkView P (archiveStep rt P config now acc data) id =
      if shouldArchive now data = true ∧ id = data.id then
        ((checkView P acc id).1, archiveCell rt config now (checkView P acc id).1 (checkView P acc id).2)
      else checkView P acc id := by
  unfold checkView
  rw [snd_archiveStep]
  by_cases due : shouldArchive now data = true
  · rw [if_pos due, engine_archiveData, cell_archiveData]
    simp only [due, true_and]
    split <;> rfl
  · rw [if_neg due, if_neg (fun both => due both.1)]

theorem checkView_archiveLocal :
    checkView P (archiveLocal rt P config now acc) id =
      ((checkView P acc id).1,
        archiveCell rt config now (checkView P acc id).1 (checkView P acc id).2) := by
  refine view_foldl_of_forall (f := fun _ c => (c.1, archiveCell rt config now c.1 c.2))
    (checkView_archiveStep rt P config now) ?_ ?_
  · intro id c
    rw [archiveCell_archiveCell]
  · intro none_due
    refine Prod.ext rfl (archiveCell_of_not_due rt config now ?_ _)
    intro data found
    refine Bool.eq_false_iff.mpr fun due => none_due ?_
    exact (acc.2.storage.exists_mem_list_iff P .localStorage (shouldArchive now) id).mpr
      ⟨data, found, due⟩

/-- A record of the archive that is past its retention is deleted. -/
def expireCell : Cell :=
  if ∃ data ∈ c.archived,
      shouldPermanentlyDelete config.postArchivalRetentionDays now data = true then ⟨none, none⟩
  else c

theorem snd_deleteStep :
    (deleteStep P config now acc data).2 =
      if shouldPermanentlyDelete config.postArchivalRetentionDays now data then
        (deleteData P config data.id "system-autoprocess" acc.2).2
      else acc.2 := by
  have chosen : (data.isArchived &&
      shouldPermanentlyDelete config.postArchivalRetentionDays now data) =
      shouldPermanentlyDelete config.postArchivalRetentionDays now data := by
    unfold shouldPermanentlyDelete
    cases data.isArchived <;> rfl
  unfold deleteStep
  rw [chosen]
  split
  · split <;> (rename_i ended; rw [ended])
  · rfl

theorem checkView_deleteStep :
    checkView P (deleteStep P config now acc data) id =
      if shouldPermanentlyDelete config.postArchivalRetentionDays now data = true ∧ id = data.id then
        ((checkView P acc id).1, ⟨none, none⟩)
      else checkView P acc id := by
  unfold checkView
  rw [snd_deleteStep]
  by_cases late : shouldPermanentlyDelete config.postArchivalRetentionDays now data = true
  · rw [if_pos late, engine_deleteData, cell_deleteData]
    simp only [late, true_and]
    split <;> rfl
  · rw [if_neg late, if_neg (fun both => late both.1)]

theorem checkView_deleteFrom {storageType : ArchivalStorageType} (archives : storageType.archives = true)
    (acc : CheckResult × Manager L A) (id : String) :
    checkView P (deleteFrom P config now storageType acc) id =
      ((checkView P acc id).1, expireCell config now (checkView P acc id).2) := by
  refine (view_foldl (f := fun _ c => (c.1, ⟨none, none⟩)) (checkView_deleteStep P config now)
    (fun _ _ => rfl) (acc.2.storage.list P storageType) acc id).trans ?_
  simp only [acc.2.storage.exists_mem_list_iff, Cell.read, archives, if_true]
  unfold checkView expireCell
  by_cases late : ∃ data ∈ (acc.2.storage.cell P id).archived,
      shouldPermanentlyDelete config.postArchivalRetentionDays now data = true
  · rw [if_pos late, if_pos late]
  · rw [if_neg late, if_neg late]

theorem expireCell_expireCell :
    expireCell config now (expireCell config now c) = expireCell config now c := by
  by_cases late : ∃ data ∈ c.archived,
      shouldPermanentlyDelete config.postArchivalRetentionDays now data = true
  · have emptied : expireCell config now c = ⟨none, none⟩ := if_pos late
    rw [emptied]
    exact if_neg (by simp)
  · have kept : expireCell config now c = c := if_neg late
    rw [kept, kept]

/-- What the checks do to a cell: a due record is archived, and then a record of the archive
that is past its retention is deleted. -/
def checkCell : Cell :=
  if config.enabled = false then c
  else
    let c := if config.automaticArchival then archiveCell rt config now engine c else c
    if config.automaticDeletion then expireCell config now c else c

/-- What archiving and expiry keep, the checks keep. -/
theorem checkCell_keeps {engine : PolicyEngine} {Q : Cell → Prop}
    (archives : ∀ c, Q c → Q (archiveCell rt config now engine c))
    (expires : ∀ c, Q c → Q (expireCell config now c)) {c : Cell} (holds : Q c) :
    Q (checkCell rt config now engine c) := by
  have archived : Q (if config.automaticArchival then archiveCell rt config now engine c else c) := by
    split
    · exact archives c holds
    · exact holds
  unfold checkCell
  split
  · exact holds
  · dsimp only
    split
    · exact expires _ archived
    · exact archived

theorem checkView_runRetentionChecks :
    checkView P (runRetentionChecks rt P config now m) id =
      (m.engine, checkCell rt config now m.engine (m.storage.cell P id)) := by
  unfold runRetentionChecks checkCell
  split
  · rfl
  · have archived (acc : CheckResult × Manager L A) :
        checkView P (if config.automaticArchival then archiveLocal rt P config now acc else acc) id =
          ((checkView P acc id).1,
            if config.automaticArchival then
              archiveCell rt config now (checkView P acc id).1 (checkView P acc id).2
            else (checkView P acc id).2) := by
      split
      · rw [checkView_archiveLocal]
      · rfl
    dsimp only
    split
    · rw [checkView_deleteFrom P config now rfl, checkView_deleteFrom P config now rfl, archived,
        expireCell_expireCell]
      rfl
    · rw [archived]
      rfl

theorem cell_runRetentionChecks :
    (runRetentionChecks rt P config now m).2.storage.cell P id =
      checkCell rt config now m.engine (m.storage.cell P id) :=
  congrArg Prod.snd (checkView_runRetentionChecks rt P config now m id)

end Cells

end TalentTrust.Retention
