import TalentTrust.Retention.Lifecycle

/-!
What callers of the retention manager rely on: data that was archived can be restored
as it was, and the retention checks leave nothing that is due.

Both fail where a policy archives to `LOCAL` or `CLOUD`. Those names stand for the local
provider, so nothing reaches the archive, while `restoreArchivedData` and the deletion
loop of `runRetentionChecks` look there only.
-/

namespace TalentTrust.Retention

open TalentTrust.Lib

variable {L A : Type} (rt : Runtime) (P : Providers L A) (config : RetentionConfig)

/-! ### A manager in memory -/

def memoryProviders : Providers InMemoryStorage InMemoryStorage := ⟨inMemory, inMemory⟩

/-- A new manager with its two providers in memory. -/
def memoryManager : Manager InMemoryStorage InMemoryStorage := ⟨⟨.empty, .empty⟩, .empty, []⟩

theorem vacant_memoryManager : Vacant memoryProviders memoryManager := by
  intro id
  exact congrArg₂ Cell.mk (OrderedMap.get?_empty id) (OrderedMap.get?_empty id)

def memoryRuntime : Runtime := ⟨fun _ => "1970", fun _ => "04"⟩

def memoryConfig : RetentionConfig := ⟨true, true, true, 30, "GDPR", true⟩

theorem day_bounds (n : Fin 1000) :
    -maxTime ≤ (n.val : Int) * 86400000 ∧ (n.val : Int) * 86400000 ≤ maxTime := by
  unfold maxTime
  omega

/-- So many days after the epoch. -/
def day (n : Fin 1000) : Instant := ⟨n.val * 86400000, (day_bounds n).1, (day_bounds n).2⟩

def document : DataInput := ⟨.document, .str "report", .internal, (day 0).date, none⟩

variable (storageType : ArchivalStorageType)

/-- A policy that keeps documents for 90 days and archives them to `storageType`. -/
def documentPolicy : PolicyConfig :=
  ⟨"documents", "", .document, .ninetyDays, .internal, storageType, false, false, true⟩

/-- The policy is made and a document stored under it. -/
def storeDocument : List Call :=
  [⟨day 0, .createRetentionPolicy (documentPolicy storageType) "policy"⟩,
    ⟨day 0, .storeData document (some "policy") "system" "a"⟩]

def documentId : String := generateDataId (day 0) "a"

def reachedBy (calls : List Call) : Manager InMemoryStorage InMemoryStorage :=
  run (step memoryRuntime memoryProviders memoryConfig) memoryManager calls

def archiveDocument : List Call :=
  storeDocument storageType ++ [⟨day 90, .archiveData documentId "system"⟩]

/-! ### Purge -/

/-- A purge leaves no record under the id of one that it deletes from the archive. -/
def LeavesNoCopy (days : Nat) (now : Instant) (s : Storage L A) : Prop :=
  ∀ id data, s.retrieve P id .coldStorage = some data → postArchivalExpired days now data = true →
    ∀ storageType, (executePurge P days now false s).2.retrieve P id storageType = none

/-- What the purge deletes from the archive is gone exactly when the local record of the id,
if there is one, is also one that the purge deletes. Archiving leaves a local record that is
marked as archived, and the purge never deletes such a record. -/
theorem leaves_no_copy_iff (days : Nat) (now : Instant) (s : Storage L A) :
    LeavesNoCopy P days now s ↔
      ∀ id data, s.retrieve P id .coldStorage = some data →
        postArchivalExpired days now data = true →
          ∀ row, s.retrieve P id .localStorage = some row → expiredActive now row = true := by
  refine forall_congr' fun id => forall_congr' fun data => imp_congr_right fun found =>
    imp_congr_right fun expired => ?_
  simp only [Storage.retrieve_eq, cell_executePurge]
  constructor
  · intro gone row active
    have dropped := Option.filter_eq_none_iff.mp (gone .localStorage) row active
    simpa using dropped
  · intro due storageType
    unfold Cell.read
    split
    · refine Option.filter_eq_none_iff.mpr fun copy held => ?_
      cases found.symm.trans held
      simp [expired]
    · refine Option.filter_eq_none_iff.mpr fun row active => ?_
      simp [due row active]

/-- A document in cold storage, purged 31 days after it was archived: the row that archiving
left in the local provider stays. -/
theorem local_row_survives_purge :
    ¬ LeavesNoCopy memoryProviders 30 (day 121) (reachedBy (archiveDocument .coldStorage)).storage := by
  intro none_left
  obtain ⟨copy, held, expired⟩ : ∃ copy ∈ (reachedBy (archiveDocument .coldStorage)).storage.retrieve
      memoryProviders documentId .coldStorage, postArchivalExpired 30 (day 121) copy = true := by
    decide +kernel
  have gone := none_left documentId copy held expired .localStorage
  have kept : ((executePurge memoryProviders 30 (day 121) false
      (reachedBy (archiveDocument .coldStorage)).storage).2.retrieve memoryProviders documentId
        .localStorage).isSome = true := by
    decide +kernel
  rw [gone] at kept
  cases kept

variable {m : Manager L A} {data : RetainedData} {id : String}

/-- While no id is drawn twice, a record that a purge deletes from the archive stays in the
local provider, marked as archived. -/
theorem purge_keeps_marked (vacant : Vacant P m) (calls : List Call)
    (fresh : Along (step rt P config) (FreshId P) m calls)
    (held : (run (step rt P config) m calls).storage.retrieve P id .coldStorage = some data)
    (days : Nat) (now : Instant) :
    ∃ row, (executePurge P days now false (run (step rt P config) m calls).storage).2.retrieve P id
        .localStorage = some row ∧ row.isArchived = true := by
  obtain ⟨row, found, marked⟩ :=
    (coherent_run rt P config vacant fresh).paired id (Option.isSome_of_eq_some held)
  refine ⟨row, ?_, marked⟩
  rw [Storage.retrieve_eq, cell_executePurge]
  refine Option.filter_eq_some_iff.mpr ⟨found, ?_⟩
  simp [expiredActive, marked]

theorem purge_keeps_marked_document :
    ∃ row, (executePurge memoryProviders 30 (day 121) false
        (reachedBy (archiveDocument .coldStorage)).storage).2.retrieve memoryProviders documentId
        .localStorage = some row ∧ row.isArchived = true := by
  obtain ⟨data, held⟩ : ∃ data, (reachedBy (archiveDocument .coldStorage)).storage.retrieve
      memoryProviders documentId .coldStorage = some data :=
    Option.isSome_iff_exists.mp (by decide +kernel)
  exact purge_keeps_marked memoryRuntime memoryProviders memoryConfig vacant_memoryManager
    (archiveDocument .coldStorage) ⟨trivial, rfl, trivial, trivial⟩ held 30 (day 121)

/-! ### Archive and restore -/

/-- The records agree in what was stored. -/
structure SameRecord (original found : RetainedData) : Prop where
  id : found.id = original.id
  entityType : found.entityType = original.entityType
  data : found.data = original.data
  classification : found.classification = original.classification
  createdAt : found.createdAt = original.createdAt
  expiresAt : found.expiresAt = original.expiresAt
  retentionPolicyId : found.retentionPolicyId = original.retentionPolicyId

structure Unarchived (data : RetainedData) : Prop where
  isArchived : data.isArchived = false
  archivedAt : data.archivedAt = none
  archivedLocation : data.archivedLocation = none

/-- After data is archived, restoring it succeeds, brings the record back as it was and takes
it out of the archive. -/
def RoundTrips (now : Instant) (id archiver restorer : String) (original : RetainedData)
    (m : Manager L A) : Prop :=
  let restored :=
    restoreArchivedData P config id restorer (archiveData rt P config now id archiver m).2
  (∃ record, restored.1 = .ok record) ∧
    (∃ row, retrieveData P id restored.2 = some row ∧ SameRecord original row ∧ Unarchived row) ∧
    restored.2.storage.retrieve P id .coldStorage = none

theorem unarchived_restoredData (data : RetainedData) : Unarchived (restoredData data) :=
  ⟨rfl, rfl, rfl⟩

theorem sameRecord_restoredData {original : RetainedData} :
    SameRecord original (restoredData data) ↔ SameRecord original data :=
  ⟨fun same => ⟨same.1, same.2, same.3, same.4, same.5, same.6, same.7⟩,
    fun same => ⟨same.1, same.2, same.3, same.4, same.5, same.6, same.7⟩⟩

theorem sameRecord_archivedCopy (now : Instant) (engine : PolicyEngine) (data : RetainedData) :
    SameRecord data (archivedCopy rt config now engine data) :=
  ⟨rfl, rfl, rfl, rfl, rfl, rfl, rfl⟩

theorem restores_iff (named : id ≠ "") (original : RetainedData) (restorer : String) :
    ((∃ record, (restoreArchivedData P config id restorer m).1 = .ok record) ∧
        (∃ row, retrieveData P id (restoreArchivedData P config id restorer m).2 = some row ∧
          SameRecord original row ∧ Unarchived row) ∧
        (restoreArchivedData P config id restorer m).2.storage.retrieve P id .coldStorage = none) ↔
      ∃ copy, (m.storage.cell P id).archived = some copy ∧ SameRecord original copy := by
  cases found : (m.storage.cell P id).archived with
  | none =>
    rw [restoreArchivedData_of_none P config m found]
    simp
  | some copy =>
    have same : copy.id = id := m.storage.id_of_archived P found
    have cell : (restoreArchivedData P config id restorer m).2.storage.cell P id =
        ⟨some (restoredData copy), none⟩ := by
      rw [cell_restoreArchivedData, if_pos rfl]
      simp [restoreCell, found, same, if_neg named]
    have row : retrieveData P id (restoreArchivedData P config id restorer m).2 =
        some (restoredData copy) := congrArg Cell.active cell
    have gone : (restoreArchivedData P config id restorer m).2.storage.retrieve P id .coldStorage =
        none := congrArg Cell.archived cell
    rw [restoreArchivedData_of_archived P config m found named, row, gone]
    simp only [Option.some.injEq, exists_eq_left', and_true, sameRecord_restoredData]
    constructor
    · rintro ⟨_, agrees, _⟩
      exact agrees
    · intro agrees
      exact ⟨⟨_, rfl⟩, agrees, unarchived_restoredData copy⟩

theorem due_of_archiveData_ok {now : Instant} {actor : String} {outcome : ArchiveOutcome}
    (stored : retrieveData P id m = some data)
    (succeeds : (archiveData rt P config now id actor m).1 = .ok outcome) :
    shouldArchive now data = true := by
  rcases due_or_not now (m.storage.cell P id) with ⟨found, here, due⟩ | early
  · cases here.symm.trans stored
    exact due
  · obtain ⟨message, refused⟩ := archiveData_of_not_due rt P config now m early actor
    rw [refused] at succeeds
    cases succeeds

/-- In every state that a run reaches, data that can be archived comes back as it was exactly
when its policy sends it to the archive provider. (A record that the archive already holds
under the id would come back in its place: ids are drawn at random.) -/
theorem round_trips_iff {m : Manager L A} (vacant : Vacant P m) (calls : List Call) {id : String}
    {data : RetainedData} (stored : retrieveData P id (run (step rt P config) m calls) = some data)
    {now : Instant} {archiver : String} {outcome : ArchiveOutcome}
    (succeeds : (archiveData rt P config now id archiver (run (step rt P config) m calls)).1 =
      .ok outcome)
    (restorer : String) :
    RoundTrips rt P config now id archiver restorer data (run (step rt P config) m calls) ↔
      (archivalStorageType (run (step rt P config) m calls).engine data).archives = true ∨
        ∃ old, (run (step rt P config) m calls).storage.retrieve P id .coldStorage = some old ∧
          SameRecord data old := by
  have sound := sound_run rt P config vacant calls id
  generalize run (step rt P config) m calls = reached at *
  have due := due_of_archiveData_ok rt P config stored succeeds
  have named : id ≠ "" := sound.id_ne_empty_of_active stored
  unfold RoundTrips
  rw [restores_iff P config named, cell_archiveData, if_pos rfl,
    archiveCell_of_due rt config now stored due, archived_archivedCell]
  cases archives : (archivalStorageType reached.engine data).archives with
  | true => simpa using sameRecord_archivedCopy rt config now reached.engine data
  | false =>
    simp only [Bool.false_eq_true, if_false, false_or]
    rfl

/-- A document whose policy archives it to `LOCAL` is archived and cannot be restored. -/
theorem local_archive_not_restored :
    ∃ data outcome, retrieveData memoryProviders documentId (reachedBy (storeDocument .localStorage)) =
        some data ∧
      (archiveData memoryRuntime memoryProviders memoryConfig (day 90) documentId "system"
        (reachedBy (storeDocument .localStorage))).1 = .ok outcome ∧
      ¬ RoundTrips memoryRuntime memoryProviders memoryConfig (day 90) documentId "system" "system" data
        (reachedBy (storeDocument .localStorage)) := by
  obtain ⟨data, held, due⟩ : ∃ data ∈ retrieveData memoryProviders documentId
      (reachedBy (storeDocument .localStorage)), shouldArchive (day 90) data = true := by
    decide +kernel
  have found : ((reachedBy (storeDocument .localStorage)).storage.cell memoryProviders
      documentId).active = some data := held
  refine ⟨data, _, held, (archiveData_of_due memoryRuntime memoryProviders memoryConfig (day 90) _ found
    due "system").1, ?_⟩
  rintro ⟨⟨record, restored⟩, _⟩
  have fails : (restoreArchivedData memoryProviders memoryConfig documentId "system"
      (archiveData memoryRuntime memoryProviders memoryConfig (day 90) documentId "system"
        (reachedBy (storeDocument .localStorage))).2).1.isOk = false := by
    decide +kernel
  rw [restored] at fails
  cases fails

/-- A document whose policy archives it to `COLD_STORAGE` is restored as it was. -/
theorem cold_archive_restored :
    ∃ data, retrieveData memoryProviders documentId (reachedBy (storeDocument .coldStorage)) =
        some data ∧
      RoundTrips memoryRuntime memoryProviders memoryConfig (day 90) documentId "system" "system" data
        (reachedBy (storeDocument .coldStorage)) := by
  obtain ⟨data, held, due, archives⟩ : ∃ data ∈ retrieveData memoryProviders documentId
      (reachedBy (storeDocument .coldStorage)), shouldArchive (day 90) data = true ∧
        (archivalStorageType (reachedBy (storeDocument .coldStorage)).engine data).archives = true := by
    decide +kernel
  have found : ((reachedBy (storeDocument .coldStorage)).storage.cell memoryProviders
      documentId).active = some data := held
  have succeeds := (archiveData_of_due memoryRuntime memoryProviders memoryConfig (day 90) _ found
    due "system").1
  exact ⟨data, held, (round_trips_iff memoryRuntime memoryProviders memoryConfig vacant_memoryManager
    (storeDocument .coldStorage) held succeeds "system").mpr (.inl archives)⟩

/-! ### Retention checks -/

/-- The record should not be held any more as it is. -/
def Overdue (days : Nat) (now : Instant) (data : RetainedData) : Prop :=
  (data.isArchived = true ∧ PastRetention days now data) ∨
    (data.isArchived = false ∧ data.expiresAt.le now.date = true)

/-- The checks leave no overdue record in any provider. -/
def ChecksComplete (now : Instant) (m : Manager L A) : Prop :=
  ∀ id storageType data,
    (runRetentionChecks rt P config now m).2.storage.retrieve P id storageType = some data →
      ¬ Overdue config.postArchivalRetentionDays now data

/-- A local record that only a copy in the archive gets deleted: it is archived and past its
retention, or it is due and becomes so at once without leaving the local provider. -/
def NeedsCopy (now : Instant) (engine : PolicyEngine) (row : RetainedData) : Prop :=
  (row.isArchived = true ∧ PastRetention config.postArchivalRetentionDays now row) ∨
    (shouldArchive now row = true ∧ (archivalStorageType engine row).archives = false ∧
      config.postArchivalRetentionDays = 0)

section Cells

variable {rt P config} {id : String} {c : Cell} {now : Instant} {engine : PolicyEngine}

theorem pastRetention_now {days : Nat} (stamped : data.archivedAt = some now.date) :
    PastRetention days now data ↔ days = 0 := by
  simp only [PastRetention, stamped, Instant.date, Option.mem_def, Option.some.injEq, exists_eq_left',
    daysMs]
  omega

theorem expires_iff (sound : c.Sound id) (days : Nat) :
    (∃ copy ∈ c.archived, shouldPermanentlyDelete days now copy = true) ↔
      ∃ copy, c.archived = some copy ∧ PastRetention days now copy := by
  refine exists_congr fun copy => and_congr_right fun held => ?_
  obtain ⟨marked, at_, stamped⟩ := sound.archived copy held
  rw [shouldPermanentlyDelete_iff stamped]
  exact and_iff_right marked

/-- Once nothing is due, the deletion leaves an overdue record exactly where one that is past
its retention has no copy in the archive that is. -/
theorem expireCell_complete_iff (sound : c.Sound id)
    (settled : ∀ data, c.active = some data → shouldArchive now data = false) :
    (∀ storageType data, (expireCell config now c).read storageType = some data →
        ¬ Overdue config.postArchivalRetentionDays now data) ↔
      ∀ row, c.active = some row →
        row.isArchived = true ∧ PastRetention config.postArchivalRetentionDays now row →
          ∃ copy, c.archived = some copy ∧ PastRetention config.postArchivalRetentionDays now copy := by
  unfold expireCell
  by_cases past : ∃ copy, c.archived = some copy ∧
      PastRetention config.postArchivalRetentionDays now copy
  · rw [if_pos ((expires_iff sound _).mpr past)]
    refine iff_of_true ?_ fun _ _ _ => past
    intro storageType data held
    unfold Cell.read at held
    split at held <;> cases held
  · rw [if_neg fun late => past ((expires_iff sound _).mp late)]
    constructor
    · intro none_left row held late
      exact absurd (.inl late) (none_left .localStorage row held)
    · intro covered storageType data held overdue
      unfold Cell.read at held
      split at held
      · -- A record of the archive is marked, and none is past its retention.
        rcases overdue with ⟨_, late⟩ | ⟨unmarked, _⟩
        · exact past ⟨data, held, late⟩
        · rw [(sound.archived data held).1] at unmarked
          cases unmarked
      · rcases overdue with late | ⟨unmarked, expired⟩
        · exact past (covered data held late)
        · have due := settled data held
          rw [shouldArchive, unmarked, expired] at due
          cases due

theorem checkCell_complete_iff (sound : c.Sound id) :
    (∀ storageType data,
        (expireCell config now (archiveCell rt config now engine c)).read storageType = some data →
          ¬ Overdue config.postArchivalRetentionDays now data) ↔
      ∀ row, c.active = some row → NeedsCopy config now engine row →
        ∃ copy, c.archived = some copy ∧ PastRetention config.postArchivalRetentionDays now copy := by
  have archived : (archiveCell rt config now engine c).Sound id := sound.archiveCell
  rcases due_or_not now c with ⟨data, found, due⟩ | refused
  · -- The record is marked, at this very time.
    rw [archiveCell_of_due rt config now found due] at archived ⊢
    rw [expireCell_complete_iff archived, active_archivedCell, archived_archivedCell, found]
    · simp only [Option.some.injEq, forall_eq', NeedsCopy, isArchived_of_shouldArchive due, due,
        Bool.false_eq_true, false_and, false_or, true_and]
      have marked : (flaggedData (archiveResult config now engine data) data).isArchived = true := rfl
      have flagged : PastRetention config.postArchivalRetentionDays now
          (flaggedData (archiveResult config now engine data) data) ↔
          config.postArchivalRetentionDays = 0 := pastRetention_now rfl
      have copied : PastRetention config.postArchivalRetentionDays now
          (archivedCopy rt config now engine data) ↔
          config.postArchivalRetentionDays = 0 := pastRetention_now rfl
      cases (archivalStorageType engine data).archives with
      | true => simp [marked, flagged, copied]
      | false => simp [marked, flagged]
    · rintro _ ⟨⟩
      rfl
  · rw [archiveCell_of_not_due rt config now refused, expireCell_complete_iff sound refused]
    refine forall_congr' fun row => forall_congr' fun held => imp_congr_left ?_
    simp [NeedsCopy, refused row held]

end Cells

/-- In every state that a run reaches, the checks leave nothing overdue exactly when every local
record that only its copy gets deleted has a copy in the archive that is past its retention. -/
theorem checks_complete_iff {m : Manager L A} (vacant : Vacant P m) (calls : List Call)
    (enabled : config.enabled = true) (archival : config.automaticArchival = true)
    (deletion : config.automaticDeletion = true) (now : Instant) :
    ChecksComplete rt P config now (run (step rt P config) m calls) ↔
      ∀ id row, (run (step rt P config) m calls).storage.retrieve P id .localStorage = some row →
        NeedsCopy config now (run (step rt P config) m calls).engine row →
          ∃ copy, (run (step rt P config) m calls).storage.retrieve P id .coldStorage = some copy ∧
            PastRetention config.postArchivalRetentionDays now copy := by
  have sound := sound_run rt P config vacant calls
  generalize run (step rt P config) m calls = reached at *
  refine forall_congr' fun id => ?_
  have checked : checkCell rt config now reached.engine (reached.storage.cell P id) =
      expireCell config now (archiveCell rt config now reached.engine (reached.storage.cell P id)) := by
    simp [checkCell, enabled, archival, deletion]
  simp only [Storage.retrieve_eq, cell_runRetentionChecks, checked]
  exact checkCell_complete_iff (sound id)

/-- A document that its policy archived to `LOCAL` is held for good: the checks find nothing to
delete in the archive. -/
theorem local_archive_never_deleted :
    ¬ ChecksComplete memoryRuntime memoryProviders memoryConfig (day 121)
      (reachedBy (archiveDocument .localStorage)) := by
  intro complete
  obtain ⟨row, held, late⟩ : ∃ row ∈ (runRetentionChecks memoryRuntime memoryProviders memoryConfig
      (day 121) (reachedBy (archiveDocument .localStorage))).2.storage.retrieve memoryProviders documentId
        .localStorage, row.isArchived = true ∧ PastRetention 30 (day 121) row := by
    decide +kernel
  exact complete documentId .localStorage row held (.inl late)

theorem cold_archive_deleted :
    ChecksComplete memoryRuntime memoryProviders memoryConfig (day 121)
      (reachedBy (archiveDocument .coldStorage)) := by
  refine (checks_complete_iff memoryRuntime memoryProviders memoryConfig vacant_memoryManager
    (archiveDocument .coldStorage) rfl rfl rfl (day 121)).mpr ?_
  intro id row held needs
  have found : ((reachedBy (archiveDocument .coldStorage)).storage.cell memoryProviders id).active =
    some row := held
  have named : row.id = id := Storage.id_of_active memoryProviders _ found
  have all : ∀ row ∈ (reachedBy (archiveDocument .coldStorage)).storage.list memoryProviders .localStorage,
      ∃ copy ∈ (reachedBy (archiveDocument .coldStorage)).storage.retrieve memoryProviders row.id
        .coldStorage, PastRetention 30 (day 121) copy := by
    decide +kernel
  obtain ⟨copy, kept, late⟩ :=
    all row ((Storage.mem_list_iff memoryProviders _ .localStorage row).mpr (named ▸ found))
  exact ⟨copy, named ▸ kept, late⟩

end TalentTrust.Retention
