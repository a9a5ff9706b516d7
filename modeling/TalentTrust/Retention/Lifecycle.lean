import TalentTrust.Retention.Manager
import TalentTrust.Retention.Purge
import TalentTrust.Lib.Run

/-!
The life of retained data over whole runs of a manager.

A run is a list of calls, each at the time that the clock shows. `cell_step` says once
what a call can do to a cell; the invariants below are case analyses over it. `Sound`
holds in every run: what is in the archive is marked as archived and carries the time of
it. `Paired` holds in runs that never draw an id twice: whatever is in the archive also
has a local record that is marked as archived.
-/

namespace TalentTrust.Retention

open TalentTrust.Lib

/-! ### Calls -/

inductive Operation where
  | storeData (input : DataInput) (policyId : Option String) (actor random : String)
  | createRetentionPolicy (policy : PolicyConfig) (id : String)
  | setDefaultPolicy (entityType : DataEntityType) (policyId : String)
  | archiveData (dataId actor : String)
  | restoreArchivedData (dataId actor : String)
  | deleteData (dataId actor : String)
  | runRetentionChecks
  | executePurge (days : Nat) (dryRun : Bool)

structure Call where
  now : Instant
  operation : Operation

variable {L A : Type} (rt : Runtime) (P : Providers L A) (config : RetentionConfig)
  (m : Manager L A)

def step (call : Call) : Manager L A :=
  match call.operation with
  | .storeData input policyId actor random =>
    (storeData P config call.now input policyId actor random m).2.2
  | .createRetentionPolicy policy id => (createRetentionPolicy config call.now policy id m).2
  | .setDefaultPolicy entityType policyId => (setDefaultPolicy entityType policyId m).2
  | .archiveData dataId actor => (archiveData rt P config call.now dataId actor m).2
  | .restoreArchivedData dataId actor => (restoreArchivedData P config dataId actor m).2
  | .deleteData dataId actor => (deleteData P config dataId actor m).2
  | .runRetentionChecks => (runRetentionChecks rt P config call.now m).2
  | .executePurge days dryRun =>
    { m with storage := (executePurge P days call.now dryRun m.storage).2 }

def Vacant : Prop := ∀ id, m.storage.cell P id = ⟨none, none⟩

/-- A call that stores data draws an id under which nothing is held. -/
def FreshId (call : Call) : Prop :=
  match call.operation with
  | .storeData _ _ _ random => m.storage.cell P (generateDataId call.now random) = ⟨none, none⟩
  | _ => True

/-! ### What a call does to a cell -/

/-- The changes of a cell by the calls that store no new data. -/
inductive CellChange : Cell → Cell → Prop where
  | same (c : Cell) : CellChange c c
  | archive (now : Instant) (engine : PolicyEngine) (c : Cell) :
      CellChange c (archiveCell rt config now engine c)
  | restore (c : Cell) : CellChange c (restoreCell c)
  | delete (c : Cell) : CellChange c ⟨none, none⟩
  | check (now : Instant) (engine : PolicyEngine) (c : Cell) :
      CellChange c (checkCell rt config now engine c)
  | purge (days : Nat) (now : Instant) (c : Cell) : CellChange c (purgeCell days now c)

theorem CellChange.ite {rt : Runtime} {config : RetentionConfig} {p : Prop} [Decidable p] {c d : Cell}
    (change : CellChange rt config c d) : CellChange rt config c (if p then d else c) := by
  split
  · exact change
  · exact .same c

theorem cell_step (call : Call) (id : String) :
    (∃ input policyId actor random, call.operation = .storeData input policyId actor random ∧
        id = generateDataId call.now random ∧
        (step rt P config m call).storage.cell P id =
          { m.storage.cell P id with active := some (newData m.engine input policyId id) }) ∨
      CellChange rt config (m.storage.cell P id) ((step rt P config m call).storage.cell P id) := by
  rcases call with ⟨now, operation⟩
  cases operation with
  | storeData input policyId actor random =>
    simp only [step, cell_storeData]
    by_cases here : id = generateDataId now random
    · exact .inl ⟨input, policyId, actor, random, rfl, here, if_pos here⟩
    · rw [if_neg here]
      exact .inr (.same _)
  | createRetentionPolicy policy id =>
    right
    simp only [step, createRetentionPolicy]
    split <;> exact .same _
  | setDefaultPolicy entityType policyId =>
    right
    simp only [step, setDefaultPolicy]
    split <;> exact .same _
  | archiveData dataId actor =>
    right
    simp only [step, cell_archiveData]
    exact (CellChange.archive now m.engine _).ite
  | restoreArchivedData dataId actor =>
    right
    simp only [step, cell_restoreArchivedData]
    exact (CellChange.restore _).ite
  | deleteData dataId actor =>
    right
    simp only [step, cell_deleteData]
    exact (CellChange.delete _).ite
  | runRetentionChecks =>
    right
    simp only [step, cell_runRetentionChecks]
    exact .check now m.engine _
  | executePurge days dryRun =>
    right
    cases dryRun with
    | true => exact .same _
    | false =>
      simp only [step, cell_executePurge]
      exact .purge days now _

/-! ### Invariants -/

/-- The record carries the time at which it was archived. -/
def Stamped (data : RetainedData) : Prop := ∃ at_ : Instant, data.archivedAt = some at_.date

/-- What holds of every cell in every run. -/
structure Cell.Sound (id : String) (c : Cell) : Prop where
  named : id = "" → c = ⟨none, none⟩
  archived : ∀ data, c.archived = some data → data.isArchived = true ∧ Stamped data
  active : ∀ data, c.active = some data → data.isArchived = true → Stamped data

/-- Every record of the archive has a local record that is marked as archived. -/
def Cell.Paired (c : Cell) : Prop :=
  c.archived.isSome → ∃ row, c.active = some row ∧ row.isArchived = true

namespace Cell

variable {rt P config} {id : String} {c d : Cell} {now : Instant} {engine : PolicyEngine}

theorem sound_vacant (id : String) : Sound id ⟨none, none⟩ where
  named _ := rfl
  archived _ found := by cases found
  active _ found := by cases found

variable (sound : Sound id c)

include sound

theorem Sound.id_ne_empty_of_active {data : RetainedData}
    (found : c.active = some data) : id ≠ "" := by
  intro empty
  rw [sound.named empty] at found
  cases found

theorem Sound.id_ne_empty_of_archived {data : RetainedData}
    (found : c.archived = some data) : id ≠ "" := by
  intro empty
  rw [sound.named empty] at found
  cases found

theorem Sound.archiveCell : Sound id (archiveCell rt config now engine c) := by
  rcases due_or_not now c with ⟨data, found, due⟩ | refused
  · rw [archiveCell_of_due rt config now found due]
    refine ⟨?_, ?_, ?_⟩
    · intro empty
      exact absurd empty (sound.id_ne_empty_of_active found)
    · intro copy held
      rw [archived_archivedCell] at held
      split at held
      · cases held
        exact ⟨rfl, now, rfl⟩
      · exact sound.archived copy held
    · intro row held _
      cases held
      exact ⟨now, rfl⟩
  · rw [archiveCell_of_not_due rt config now refused]
    exact sound

theorem Sound.restoreCell : Sound id (restoreCell c) := by
  unfold Retention.restoreCell
  split
  · exact sound
  · rename_i data found
    split
    · refine ⟨?_, sound.archived, ?_⟩
      · intro empty
        exact absurd empty (sound.id_ne_empty_of_archived found)
      · intro row held _
        cases held
        exact (sound.archived data found).2
    · refine ⟨?_, ?_, ?_⟩
      · intro empty
        exact absurd empty (sound.id_ne_empty_of_archived found)
      · intro copy held
        cases held
      · intro row held marked
        cases held
        cases marked

theorem Sound.expireCell : Sound id (expireCell config now c) := by
  unfold Retention.expireCell
  split
  · exact sound_vacant id
  · exact sound

theorem Sound.purgeCell (days : Nat) : Sound id (purgeCell days now c) where
  named empty := by
    rw [sound.named empty]
    rfl
  archived copy held := sound.archived copy (Option.filter_eq_some_iff.mp held).1
  active row held := sound.active row (Option.filter_eq_some_iff.mp held).1

theorem Sound.change (change : CellChange rt config c d) : Sound id d := by
  cases change with
  | same => exact sound
  | archive now engine => exact sound.archiveCell
  | restore => exact sound.restoreCell
  | delete => exact sound_vacant id
  | check now engine =>
    exact checkCell_keeps rt config now (fun _ kept => kept.archiveCell)
      (fun _ kept => kept.expireCell) sound
  | purge days now => exact sound.purgeCell days

omit sound

variable (paired : Paired c)

include paired

theorem Paired.archiveCell : Paired (archiveCell rt config now engine c) := by
  rcases due_or_not now c with ⟨data, found, due⟩ | refused
  · rw [archiveCell_of_due rt config now found due]
    intro _
    exact ⟨_, rfl, rfl⟩
  · rwa [archiveCell_of_not_due rt config now refused]

theorem Paired.restoreCell (sound : Sound id c) : Paired (restoreCell c) := by
  unfold Retention.restoreCell
  split
  · exact paired
  · rename_i data found
    split
    · intro _
      exact ⟨data, rfl, (sound.archived data found).1⟩
    · nofun

theorem Paired.expireCell : Paired (expireCell config now c) := by
  unfold Retention.expireCell
  split
  · nofun
  · exact paired

theorem Paired.purgeCell (days : Nat) : Paired (purgeCell days now c) := by
  intro held
  obtain ⟨copy, kept⟩ := Option.isSome_iff_exists.mp held
  obtain ⟨row, found, marked⟩ := paired (Option.isSome_of_eq_some (Option.filter_eq_some_iff.mp kept).1)
  refine ⟨row, Option.filter_eq_some_iff.mpr ⟨found, ?_⟩, marked⟩
  simp [expiredActive, marked]

theorem Paired.change (sound : Sound id c) (change : CellChange rt config c d) :
    Paired d := by
  cases change with
  | same => exact paired
  | archive now engine => exact paired.archiveCell
  | restore => exact paired.restoreCell sound
  | delete => nofun
  | check now engine =>
    exact checkCell_keeps rt config now (fun _ kept => kept.archiveCell)
      (fun _ kept => kept.expireCell) paired
  | purge days now => exact paired.purgeCell days

end Cell

/-! ### Runs -/

theorem generateDataId_ne_empty (now : Instant) (random : String) : generateDataId now random ≠ "" := by
  unfold generateDataId
  simp

def Sound : Prop := ∀ id, (m.storage.cell P id).Sound id

variable {m : Manager L A}

theorem Vacant.sound (vacant : Vacant P m) : Sound P m := by
  intro id
  rw [vacant id]
  exact Cell.sound_vacant id

theorem Sound.step (sound : Sound P m) (call : Call) : Sound P (step rt P config m call) := by
  intro id
  rcases cell_step rt P config m call id with ⟨input, policyId, actor, random, _, here, next⟩ | change
  · rw [next]
    refine ⟨?_, (sound id).archived, ?_⟩
    · intro empty
      exact absurd (here.symm.trans empty) (generateDataId_ne_empty call.now random)
    · intro row held marked
      cases held
      cases marked
  · exact (sound id).change change

theorem sound_run (vacant : Vacant P m) (calls : List Call) :
    Sound P (run (step rt P config) m calls) :=
  run_invariant (fun _ call sound => sound.step rt P config call) (vacant.sound P) calls

/-- Every cell is sound, and what is in the archive has a local record that is marked. -/
structure Coherent (m : Manager L A) : Prop where
  sound : Sound P m
  paired : ∀ id, (m.storage.cell P id).Paired

theorem Coherent.step (coherent : Coherent P m) {call : Call} (fresh : FreshId P m call) :
    Coherent P (step rt P config m call) := by
  refine ⟨coherent.sound.step rt P config call, ?_⟩
  intro id
  rcases cell_step rt P config m call id with ⟨input, policyId, actor, random, stores, here, next⟩ | change
  · have unused : m.storage.cell P id = ⟨none, none⟩ := by
      simp only [FreshId, stores] at fresh
      rw [here, fresh]
    rw [next, unused]
    nofun
  · exact (coherent.paired id).change (coherent.sound id) change

theorem coherent_run (vacant : Vacant P m) {calls : List Call}
    (fresh : Along (step rt P config) (FreshId P) m calls) :
    Coherent P (run (step rt P config) m calls) := by
  refine fresh.invariant (fun _ _ coherent new => coherent.step rt P config new) ⟨vacant.sound P, ?_⟩
  intro id
  rw [vacant id]
  nofun

end TalentTrust.Retention
