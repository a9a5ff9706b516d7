import TalentTrust.Retention.Policies
import TalentTrust.Lib.Keyed

/-!
`retention/purge.ts`: the purge of expired data, with its dry run.

The purge deletes from each provider by a test of its own: local records that are not
archived and have expired, and records of the archive that were archived long enough
ago. So it keeps, in every cell, what fails the test of its provider
(`cell_executePurge`).
-/

namespace TalentTrust.Retention

open TalentTrust.Lib

variable {L A : Type} (P : Providers L A) (days : Nat) (now : Instant)

/-! ### Counting -/

/-- `STORAGE_TABLE_MAP`. -/
def storageTable : ArchivalStorageType → String
  | .localStorage => "local_data"
  | .cloud => "cloud_data"
  | .coldStorage => "cold_storage"
  | .encryptedArchive => "encrypted_archive"

structure PurgeCandidateCount where
  table : String
  count : Nat
  deriving DecidableEq

structure PurgeResult where
  dryRun : Bool
  candidates : List PurgeCandidateCount
  deleted : Nat
  failed : Nat
  deriving DecidableEq

/-- A local record that the purge deletes. -/
def expiredActive (data : RetainedData) : Bool := !data.isArchived && data.expiresAt.lt now.date

/-- A record of the archive that the purge deletes. -/
def postArchivalExpired (data : RetainedData) : Bool :=
  data.isArchived &&
    match data.archivedAt with
    | none => false
    | some archivedAt =>
      match archivedAt.time with
      | none => false
      | some t => daysMs days < now.ms - t

/-- One turn of the count over the archive; ids that were counted are skipped. -/
def countStep (acc : List String × Nat) (data : RetainedData) : List String × Nat :=
  if data.id ∈ acc.1 then acc
  else if postArchivalExpired days now data then (data.id :: acc.1, acc.2 + 1)
  else acc

def countPurgeCandidates (s : Storage L A) : List PurgeCandidateCount :=
  let localCount := (s.list P .localStorage).countP (expiredActive now)
  let cold := (s.list P .coldStorage).foldl (countStep days now) ([], 0)
  let encrypted := (s.list P .encryptedArchive).foldl (countStep days now) (cold.1, 0)
  [⟨storageTable .localStorage, localCount⟩, ⟨storageTable .coldStorage, cold.2⟩,
    ⟨storageTable .encryptedArchive, encrypted.2⟩]

/-! ### Deleting -/

/-- The ids that were processed, the number of deleted rows, and the storage. -/
structure PurgeState (L A : Type) where
  seenArchiveIds : List String
  deleted : Nat
  storage : Storage L A

def PurgeState.delete (id : String) (storageType : ArchivalStorageType) (acc : PurgeState L A) :
    PurgeState L A :=
  let (success, storage) := acc.storage.delete P id storageType
  { acc with deleted := if success then acc.deleted + 1 else acc.deleted, storage := storage }

def purgeLocalStep (acc : PurgeState L A) (data : RetainedData) : PurgeState L A :=
  if expiredActive now data then acc.delete P data.id .localStorage else acc

def purgeArchiveStep (storageType : ArchivalStorageType) (acc : PurgeState L A)
    (data : RetainedData) : PurgeState L A :=
  if data.id ∈ acc.seenArchiveIds then acc
  else if postArchivalExpired days now data then
    { acc with seenArchiveIds := data.id :: acc.seenArchiveIds }.delete P data.id storageType
  else acc

def purgeLocal (acc : PurgeState L A) : PurgeState L A :=
  (acc.storage.list P .localStorage).foldl (purgeLocalStep P now) acc

def purgeArchive (storageType : ArchivalStorageType) (acc : PurgeState L A) : PurgeState L A :=
  (acc.storage.list P storageType).foldl (purgeArchiveStep P days now storageType) acc

/-- `executePurge`, with the dry run decided. -/
def executePurge (dryRun : Bool) (s : Storage L A) : PurgeResult × Storage L A :=
  let candidates := countPurgeCandidates P days now s
  if dryRun then (⟨true, candidates, 0, 0⟩, s)
  else
    let acc := purgeLocal P now ⟨[], 0, s⟩
    let acc := purgeArchive P days now .coldStorage acc
    let acc := purgeArchive P days now .encryptedArchive acc
    (⟨false, candidates, acc.deleted, 0⟩, acc.storage)

/-! ### What the purge does to a cell -/

/-- What the purge keeps of an id. -/
def purgeCell (c : Cell) : Cell where
  active := c.active.filter fun data => !expiredActive now data
  archived := c.archived.filter fun data => !postArchivalExpired days now data

theorem ite_exists_mem_eq_filter {α : Type} (o : Option α) (p : α → Bool) :
    (if ∃ a ∈ o, p a = true then none else o) = o.filter fun a => !p a := by
  cases o with
  | none => simp
  | some a => cases h : p a <;> simp [h, Option.filter]

/-- What the loops read and change of an id: whether the archive loops have processed it, and
its cell. -/
def purgeView (acc : PurgeState L A) (id : String) : Bool × Cell :=
  (decide (id ∈ acc.seenArchiveIds), acc.storage.cell P id)

variable (acc : PurgeState L A)

theorem purgeView_purgeLocalStep (data : RetainedData) (id : String) :
    purgeView P (purgeLocalStep P now acc data) id =
      if expiredActive now data = true ∧ id = data.id then
        ((purgeView P acc id).1, (purgeView P acc id).2.drop .localStorage)
      else purgeView P acc id := by
  unfold purgeLocalStep
  by_cases expired : expiredActive now data = true
  · rw [if_pos expired]
    simp only [purgeView, PurgeState.delete, Storage.cell_delete, expired, true_and]
    split <;> rfl
  · rw [if_neg expired, if_neg (fun both => expired both.1)]

theorem purgeView_purgeLocal (id : String) :
    purgeView P (purgeLocal P now acc) id =
      ((purgeView P acc id).1,
        { (purgeView P acc id).2 with
          active := (purgeView P acc id).2.active.filter fun data => !expiredActive now data }) := by
  refine (view_foldl (f := fun _ v => (v.1, v.2.drop .localStorage))
    (purgeView_purgeLocalStep P now) (fun _ _ => rfl) _ acc id).trans ?_
  rw [← ite_exists_mem_eq_filter]
  simp only [acc.storage.exists_mem_list_iff P .localStorage (expiredActive now)]
  change (if ∃ data ∈ (purgeView P acc id).2.active, expiredActive now data = true then _ else _) = _
  split <;> rfl

/-- A record of the archive is deleted once. -/
def deleteOnce (v : Bool × Cell) : Bool × Cell :=
  if v.1 then v else (true, { v.2 with archived := none })

theorem deleteOnce_deleteOnce (v : Bool × Cell) : deleteOnce (deleteOnce v) = deleteOnce v := by
  rcases v with ⟨_ | _, c⟩ <;> rfl

variable {storageType : ArchivalStorageType}

theorem purgeView_purgeArchiveStep (archives : storageType.archives = true) (acc : PurgeState L A)
    (data : RetainedData) (id : String) :
    purgeView P (purgeArchiveStep P days now storageType acc data) id =
      if postArchivalExpired days now data = true ∧ id = data.id then deleteOnce (purgeView P acc id)
      else purgeView P acc id := by
  have dropped (c : Cell) : c.drop storageType = { c with archived := none } := by
    rw [Cell.drop, if_pos archives]
  unfold purgeArchiveStep
  by_cases seen : data.id ∈ acc.seenArchiveIds
  · rw [if_pos seen]
    split
    · rename_i both
      obtain ⟨_, rfl⟩ := both
      simp [deleteOnce, purgeView, seen]
    · rfl
  · rw [if_neg seen]
    by_cases expired : postArchivalExpired days now data = true
    · rw [if_pos expired]
      simp only [purgeView, PurgeState.delete, Storage.cell_delete, expired, true_and, dropped]
      split
      · rename_i here
        subst here
        simp [deleteOnce, seen]
      · rename_i other
        simp [other]
    · rw [if_neg expired, if_neg (fun both => expired both.1)]

/-- What a loop over the archive makes of an id. -/
def archiveView (v : Bool × Cell) : Bool × Cell :=
  if ∃ data ∈ v.2.archived, postArchivalExpired days now data = true then deleteOnce v else v

theorem purgeView_purgeArchive (archives : storageType.archives = true) (acc : PurgeState L A)
    (id : String) :
    purgeView P (purgeArchive P days now storageType acc) id =
      archiveView days now (purgeView P acc id) := by
  refine (view_foldl (f := fun _ => deleteOnce) (purgeView_purgeArchiveStep P days now archives)
    (fun _ => deleteOnce_deleteOnce) _ acc id).trans ?_
  simp only [acc.storage.exists_mem_list_iff P storageType, Cell.read, archives, if_true]
  rfl

/-- The archive is under two names, and the second loop finds nothing that is left to delete. -/
theorem archiveView_archiveView (c : Cell) :
    archiveView days now (archiveView days now (false, c)) =
      (decide (∃ data ∈ c.archived, postArchivalExpired days now data = true),
        { c with archived := c.archived.filter fun data => !postArchivalExpired days now data }) := by
  rcases c with ⟨active, _ | data⟩
  · simp [archiveView]
  · cases expired : postArchivalExpired days now data <;>
      simp [archiveView, deleteOnce, expired, Option.filter]

/-- The purge keeps of every id what fails the tests. -/
theorem cell_executePurge (s : Storage L A) (id : String) :
    (executePurge P days now false s).2.cell P id = purgeCell days now (s.cell P id) := by
  change (purgeView P (purgeArchive P days now .encryptedArchive
    (purgeArchive P days now .coldStorage (purgeLocal P now ⟨[], 0, s⟩))) id).2 = _
  rw [purgeView_purgeArchive P days now rfl, purgeView_purgeArchive P days now rfl,
    purgeView_purgeLocal]
  exact congrArg Prod.snd (archiveView_archiveView days now _)

end TalentTrust.Retention
