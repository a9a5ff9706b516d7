import TalentTrust.Retention.Guarantees

/-!
Moves between storage types, and the decisions that several parts of the retention code make
about one record.

`moveData` stores and then deletes, which loses the record within one provider
(`moveData_keeps_iff`). The purge and `determineRetentionStatus` compare the deadlines of
`shouldPermanentlyDelete` and `shouldArchive` in ways of their own (`decisions_agree_iff`).
-/

namespace TalentTrust.Retention

open TalentTrust.Lib

variable {L A : Type} (P : Providers L A) (s : Storage L A) {data : RetainedData}

/-! ### Moves -/

/-- A move that returns true leaves the record at its destination, and no longer at another
provider, iff the two types have different providers. A move of the empty id returns false. -/
theorem moveData_keeps_iff (id : String) (fromType toType : ArchivalStorageType)
    (present : s.retrieve P id fromType = some data) :
    let out := s.moveData P id fromType toType
    (out.1 = true → out.2.retrieve P id toType = some data ∧
        (fromType.archives ≠ toType.archives → out.2.retrieve P id fromType = none)) ↔
      id = "" ∨ fromType.archives ≠ toType.archives := by
  intro out
  have named : data.id = id := s.id_of_read P present
  have stored : (s.store P data toType).1 = id := by
    unfold Storage.store
    split <;> exact named
  by_cases empty : id = ""
  · have refused : out.1 = false := by
      simp [out, Storage.moveData, present, stored, if_pos empty]
    rw [refused]
    exact iff_of_true (absurd · Bool.false_ne_true) (.inl empty)
  · have moved : out = (true, ((s.store P data toType).2.delete P id fromType).2) := by
      simp [out, Storage.moveData, present, stored, if_neg empty]
    simp only [moved, Storage.retrieve_eq, Storage.cell_delete, Storage.cell_store, named, if_true,
      empty, false_or, forall_const]
    cases source : fromType.archives <;> cases target : toType.archives <;>
      simp [Cell.read, Cell.drop, Cell.put, source, target]

def storedDocument : Storage InMemoryStorage InMemoryStorage := (reachedBy (storeDocument .cloud)).storage

theorem moveData_keeps_archived :
    (storedDocument.moveData memoryProviders documentId .localStorage .coldStorage).2.retrieve
      memoryProviders documentId .localStorage = none :=
  ((moveData_keeps_iff memoryProviders storedDocument documentId .localStorage .coldStorage
    (Option.some_get (by decide +kernel)).symm).mpr (by decide) (by decide +kernel)).2
    (by decide)

/-- The local provider is that of the cloud too. -/
theorem moveData_loses_document :
    (storedDocument.retrieve memoryProviders documentId .localStorage).isSome = true ∧
      (storedDocument.moveData memoryProviders documentId .localStorage .cloud).1 = true ∧
      (storedDocument.moveData memoryProviders documentId .localStorage .cloud).2.retrieve
        memoryProviders documentId .cloud = none := by
  decide +kernel

/-! ### Decisions -/

structure RetentionStatus where
  dataId : String
  createdAt : Date
  expiresAt : Date
  /-- `none` is `NaN`. -/
  daysUntilExpiry : Option Int
  isArchived : Bool
  archivedLocation : Option String
  needsAction : Bool
  actionRequired : Option String

variable (days : Nat) (now : Instant)

def determineRetentionStatus (data : RetainedData) : RetentionStatus :=
  -- `Math.ceil`: the days since expiry, rounded down, with the other sign.
  let daysUntilExpiry := data.expiresAt.time.map fun t => -((now.ms - t) / 86400000)
  let actionRequired :=
    if data.isArchived && daysUntilExpiry.any (· < 0) then
      some "Data archive has expired and should be deleted"
    else if !data.isArchived && daysUntilExpiry.any (· < 0) then
      some "Data has expired and should be archived"
    else if !data.isArchived && daysUntilExpiry.any (· ≤ 7) then
      some "Data expiration approaching (7 days or less)"
    else none
  ⟨data.id, data.createdAt, data.expiresAt, daysUntilExpiry, data.isArchived, data.archivedLocation,
    actionRequired.isSome, actionRequired⟩

/-- The status calls for archiving from one day after the expiry on. -/
theorem status_archive_iff (active : data.isArchived = false) :
    (determineRetentionStatus now data).actionRequired = some "Data has expired and should be archived" ↔
      ∃ t ∈ data.expiresAt.time, t + 86400000 ≤ now.ms := by
  simp only [determineRetentionStatus, active]
  cases data.expiresAt.time with
  | none => simp
  | some t =>
    have ceil : -((now.ms - t) / 86400000) < 0 ↔ t + 86400000 ≤ now.ms := by omega
    simp only [Option.map_some, Option.any_some, Bool.false_and, Bool.not_false, Bool.true_and,
      decide_eq_true_eq, ceil, Bool.false_eq_true, if_false, Option.mem_def, Option.some.injEq,
      exists_eq_left']
    split
    · simp [*]
    · split <;> simp [*]

/-- For an archived record at a storage type, the purge decides as `shouldPermanentlyDelete`
does iff the record is in the archive and not at its deadline, or not due. For an active one, the
status decides as `shouldArchive` does iff it is not within the day from its expiry on. -/
theorem decisions_agree_iff {storageType : ArchivalStorageType}
    (held : s.retrieve P data.id storageType = some data)
    (valid : ∀ archivedAt ∈ data.archivedAt, ∀ t ∈ archivedAt.time, -maxTime ≤ t) :
    (data.isArchived = true →
      (((executePurge P days now false s).2.retrieve P data.id storageType = none ↔
          shouldPermanentlyDelete days now data = true) ↔
        if storageType.archives then ∀ archivedAt ∈ data.archivedAt,
          archivedAt.time ≠ some (now.ms - daysMs days)
        else shouldPermanentlyDelete days now data = false)) ∧
    (data.isArchived = false →
      (((determineRetentionStatus now data).actionRequired =
            some "Data has expired and should be archived" ↔ shouldArchive now data = true) ↔
        ∀ t ∈ data.expiresAt.time, ¬ (t ≤ now.ms ∧ now.ms < t + 86400000))) := by
  rw [Storage.retrieve_eq] at held
  constructor
  · intro archived
    rw [Storage.retrieve_eq, cell_executePurge]
    unfold Cell.read at held ⊢
    cases archives : storageType.archives with
    | false =>
      have kept : (purgeCell days now (s.cell P data.id)).active = some data := by
        simp_all [purgeCell, expiredActive]
      simp [kept]
    | true =>
      have dropped : (purgeCell days now (s.cell P data.id)).archived = none ↔
          postArchivalExpired days now data = true := by
        simp_all [purgeCell, Option.filter_eq_none_iff]
      simp only [if_true, dropped, postArchivalExpired, shouldPermanentlyDelete, archived,
        Bool.true_and]
      cases stamp : data.archivedAt with
      | none => simp
      | some archivedAt =>
        cases time : archivedAt.time with
        | none => simp [time]
        | some t =>
          have least := valid archivedAt stamp t time
          simp only [deadline_le_iff least, decide_eq_true_eq, Option.mem_def, Option.some.injEq,
            forall_eq', time, ne_eq]
          omega
  · intro active
    rw [status_archive_iff now active, shouldArchive, active, Bool.not_false, Bool.true_and,
      le_date_iff]
    cases data.expiresAt.time with
    | none => simp
    | some t =>
      simp only [Option.mem_def, Option.some.injEq, exists_eq_left', forall_eq']
      omega

/-- The manager after a document was archived to cold storage on day 90. -/
def archivedDocument : Storage InMemoryStorage InMemoryStorage :=
  (reachedBy (archiveDocument .coldStorage)).storage

theorem decisions_agree_later :
    (executePurge memoryProviders 30 (day 121) false archivedDocument).2.retrieve memoryProviders
      documentId .coldStorage = none := by
  obtain ⟨copy, held, named, archived, stamp, due⟩ : ∃ copy ∈ archivedDocument.retrieve memoryProviders
      documentId .coldStorage, copy.id = documentId ∧ copy.isArchived = true ∧
        copy.archivedAt = some (day 90).date ∧ shouldPermanentlyDelete 30 (day 121) copy = true := by
    decide +kernel
  rw [← named] at held ⊢
  refine (((decisions_agree_iff memoryProviders archivedDocument 30 (day 121) held ?_).1
    archived).mpr ?_).mpr due
  · simp [stamp, Instant.date, day, maxTime]
  · simp [stamp, Instant.date, day, daysMs, ArchivalStorageType.archives]

/-- On the day of each deadline. -/
theorem decisions_differ :
    (∃ copy ∈ archivedDocument.retrieve memoryProviders documentId .coldStorage,
      shouldPermanentlyDelete 30 (day 120) copy = true ∧
        (executePurge memoryProviders 30 (day 120) false archivedDocument).2.retrieve memoryProviders
          documentId .coldStorage = some copy) ∧
    ∃ row ∈ storedDocument.retrieve memoryProviders documentId .localStorage,
      shouldArchive (day 90) row = true ∧ (determineRetentionStatus (day 90) row).actionRequired =
        some "Data expiration approaching (7 days or less)" := by
  decide +kernel

end TalentTrust.Retention
