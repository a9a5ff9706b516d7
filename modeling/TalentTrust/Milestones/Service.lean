import TalentTrust.Utils.SoftDelete

/-!
`services/milestones.service.ts`: the milestone records of a contract.

`create` files a record under any contract id and with any amount; neither it nor
`restore` looks at the contract or at its other milestones.
`validateMilestonesAgainstBudget`, which would, has no caller. Each operation
writes one record (`softDelete_ok`, `restore_ok`).
-/

namespace TalentTrust.Milestones

open TalentTrust.Lib TalentTrust.Retention TalentTrust.SoftDelete

structure MilestoneRecord where
  id : String
  contractId : String
  title : String
  description : String
  amount : Decimal
  deadline : Option String
  completed : Bool
  createdAt : Date
  updatedAt : Date
  deletedAt : Option Date
  deriving DecidableEq

structure CreateMilestoneInput where
  title : String
  description : Option String := none
  amount : Decimal
  deadline : Option String := none
  completed : Option Bool := none
  deriving DecidableEq

abbrev MilestoneStore := OrderedMap String MilestoneRecord

inductive MilestoneError where
  /-- `MilestoneNotFoundError`, with code `milestone_not_found` and status 404. -/
  | notFound (message : String)
  /-- `MilestoneConflictError`, with code `milestone_conflict` and status 409. -/
  | conflict (message : String)
  | retention (error : RetentionError)
  deriving DecidableEq

variable (store : MilestoneStore) (contractId : String)

/-- `create`; `id` is what `randomUUID()` draws. The webhook for a completed milestone is
sent without waiting for it. -/
def create (input : CreateMilestoneInput) (id : String)
    (now : Date) : MilestoneRecord × MilestoneStore :=
  let record : MilestoneRecord :=
    { id
      contractId
      title := input.title
      description := input.description.getD ""
      amount := input.amount
      deadline := input.deadline
      completed := input.completed.getD false
      createdAt := now
      updatedAt := now
      deletedAt := none }
  (record, store.set id record)

variable (milestoneId : String)

/-- The record of a contract, which every operation on a record asks for first. -/
def find : Except MilestoneError MilestoneRecord :=
  match (store.get? milestoneId).filter fun record => record.contractId = contractId with
  | none =>
    .error (.notFound ("Milestone " ++ milestoneId ++ " not found for contract " ++ contractId))
  | some record => .ok record

def softDelete (now : Date) : Except MilestoneError (MilestoneRecord × MilestoneStore) :=
  match find store contractId milestoneId with
  | .error e => .error e
  | .ok record =>
    if record.deletedAt.isSome then
      .error (.conflict ("Milestone " ++ milestoneId ++ " is already soft-deleted"))
    else
      let updated := { record with deletedAt := some now, updatedAt := now }
      .ok (updated, store.set milestoneId updated)

/-- `restore`; `envValue` is `MILESTONES_SOFT_DELETE_RETENTION_DAYS` at the call. -/
def restore (now : Date)
    (envValue : Option String) : Except MilestoneError (MilestoneRecord × MilestoneStore) :=
  match find store contractId milestoneId with
  | .error e => .error e
  | .ok record =>
    match record.deletedAt with
    | none => .error (.conflict ("Milestone " ++ milestoneId ++ " is not soft-deleted"))
    | some deletedAt =>
      let retentionDays := parseRetentionDays envValue
      if isWithinRetentionWindow deletedAt retentionDays now then
        let updated := { record with deletedAt := none, updatedAt := now }
        .ok (updated, store.set milestoneId updated)
      else
        .error (.retention
          { message := "Milestone " ++ milestoneId ++ " retention window of " ++
              toString retentionDays ++ " days has expired" })

/-! ### What the operations write -/

section Writes

variable {store store' : MilestoneStore} {contractId milestoneId : String} {now : Date}
  {record : MilestoneRecord}

theorem find_ok (found : find store contractId milestoneId = .ok record) :
    store.get? milestoneId = some record ∧ record.contractId = contractId := by
  unfold find at found
  split at found
  · cases found
  · rename_i held
    cases found
    obtain ⟨here, own⟩ := Option.filter_eq_some_iff.mp held
    exact ⟨here, of_decide_eq_true own⟩

theorem softDelete_ok (done : softDelete store contractId milestoneId now = .ok (record, store')) :
    ∃ old, store.get? milestoneId = some old ∧ old.contractId = contractId ∧ old.deletedAt = none ∧
      record = { old with deletedAt := some now, updatedAt := now } ∧
      store' = store.set milestoneId record := by
  unfold softDelete at done
  split at done
  · cases done
  · rename_i old found
    split at done
    · cases done
    · rename_i active
      cases done
      obtain ⟨held, own⟩ := find_ok found
      exact ⟨old, held, own, Option.not_isSome_iff_eq_none.mp active, rfl, rfl⟩

theorem restore_ok {envValue : Option String}
    (done : restore store contractId milestoneId now envValue = .ok (record, store')) :
    ∃ old, store.get? milestoneId = some old ∧ old.contractId = contractId ∧ old.deletedAt ≠ none ∧
      record = { old with deletedAt := none, updatedAt := now } ∧
      store' = store.set milestoneId record := by
  unfold restore at done
  split at done
  · cases done
  · rename_i old found
    split at done
    · cases done
    · rename_i deletedAt deleted
      dsimp only at done
      split at done
      · cases done
        obtain ⟨held, own⟩ := find_ok found
        exact ⟨old, held, own, by simp [deleted], rfl, rfl⟩
      · cases done

end Writes

/-! ### The active milestones of a contract -/

/-- What a record counts for a contract: its amount, while it is active. -/
def weight (record : MilestoneRecord) : ℚ :=
  if record.contractId = contractId ∧ record.deletedAt = none then record.amount.value else 0

def activeSum : ℚ := store.total (weight contractId)

variable {record : MilestoneRecord} {contractId : String}

theorem weight_of_deleted (deleted : record.deletedAt ≠ none) : weight contractId record = 0 :=
  if_neg fun both => deleted both.2

theorem weight_of_active (active : record.deletedAt = none) :
    weight contractId record = if record.contractId = contractId then record.amount.value else 0 := by
  simp [weight, active]

variable (contractId) in
theorem activeSum_create (input : CreateMilestoneInput)
    {id : String} (fresh : store.has id = false) (now : Date) (j : String) :
    activeSum (create store contractId input id now).2 j =
      activeSum store j + if contractId = j then input.amount.value else 0 := by
  have absent : store.get? id = none := by
    rw [OrderedMap.has, Option.isSome_eq_false_iff, Option.isNone_iff_eq_none] at fresh
    exact fresh
  rw [activeSum, create, OrderedMap.total_set, absent, Option.elim_none, sub_zero,
    weight_of_active rfl, activeSum]

theorem activeSum_softDelete {store store' : MilestoneStore} {milestoneId : String} {now : Date}
    (done : softDelete store contractId milestoneId now = .ok (record, store')) (j : String) :
    activeSum store' j = activeSum store j - if contractId = j then record.amount.value else 0 := by
  obtain ⟨old, held, rfl, active, rfl, rfl⟩ := softDelete_ok done
  rw [activeSum, OrderedMap.total_set, held, Option.elim_some, weight_of_active active,
    weight_of_deleted (by simp), add_zero, activeSum]

theorem activeSum_restore {store store' : MilestoneStore} {milestoneId : String} {now : Date}
    {envValue : Option String}
    (done : restore store contractId milestoneId now envValue = .ok (record, store')) (j : String) :
    activeSum store' j = activeSum store j + if contractId = j then record.amount.value else 0 := by
  obtain ⟨old, held, rfl, deleted, rfl, rfl⟩ := restore_ok done
  rw [activeSum, OrderedMap.total_set, held, Option.elim_some, weight_of_deleted deleted, sub_zero,
    weight_of_active rfl, activeSum]

end TalentTrust.Milestones
