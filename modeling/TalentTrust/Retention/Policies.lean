import TalentTrust.Retention.Storage

/-!
`retention/policies.ts`: retention policies and what they say about a record.

Policies are objects that the two maps of the engine refer to, so the engine keeps
them in a list and the maps hold positions in it.
-/

namespace TalentTrust.Retention

open TalentTrust.Lib

/-! ### Periods -/

namespace RetentionPeriod

def text : RetentionPeriod → String
  | .thirtyDays => "30d"
  | .ninetyDays => "90d"
  | .sixMonths => "6m"
  | .oneYear => "1y"
  | .twoYears => "2y"
  | .indefinite => "indefinite"

/-- `PERIOD_ORDER`: from the shortest to the longest. -/
def order : List RetentionPeriod :=
  [.thirtyDays, .ninetyDays, .sixMonths, .oneYear, .twoYears, .indefinite]

def ofText? (text : String) : Option RetentionPeriod := order.find? fun period => period.text = text

/-- `PERIOD_DURATIONS`; `INDEFINITE` is `Number.MAX_SAFE_INTEGER`. -/
def duration : RetentionPeriod → Int
  | .thirtyDays => 30 * 24 * 60 * 60 * 1000
  | .ninetyDays => 90 * 24 * 60 * 60 * 1000
  | .sixMonths => 180 * 24 * 60 * 60 * 1000
  | .oneYear => 365 * 24 * 60 * 60 * 1000
  | .twoYears => 730 * 24 * 60 * 60 * 1000
  | .indefinite => 9007199254740991

end RetentionPeriod

/-- `LEGAL_MINIMUMS`. -/
def legalMinimum : DataEntityType → RetentionPeriod
  | .contract | .transaction => .oneYear
  | .auditLog => .twoYears
  | .userProfile | .message => .thirtyDays
  | .document => .ninetyDays

/-- `DEFAULT_PERIODS`. -/
def defaultPeriod (_ : DataEntityType) : RetentionPeriod := .ninetyDays

/-- `resolvePeriod`: an override that names a period, raised to the legal minimum. -/
def resolvePeriod (entityType : DataEntityType) (overrides : List (String × String)) :
    RetentionPeriod :=
  match (overrides.lookup entityType.text).bind RetentionPeriod.ofText? with
  | some period =>
    if RetentionPeriod.order.idxOf (legalMinimum entityType) ≤ RetentionPeriod.order.idxOf period
    then period
    else legalMinimum entityType
  | none => defaultPeriod entityType

/-! ### Policies -/

structure PolicyConfig where
  name : String
  description : String
  entityType : DataEntityType
  period : RetentionPeriod
  classification : DataClassification
  archivalType : ArchivalStorageType
  encryptArchive : Bool
  allowPermanentRetention : Bool
  isActive : Bool
  deriving DecidableEq

structure RetentionPolicy extends PolicyConfig where
  id : String
  createdAt : Date
  updatedAt : Date
  deriving DecidableEq

structure PolicyEngine where
  objects : List RetentionPolicy
  policies : OrderedMap String Nat
  entityDefaults : OrderedMap DataEntityType Nat

namespace PolicyEngine

def empty : PolicyEngine := ⟨[], .empty, .empty⟩

variable (engine : PolicyEngine)

def getPolicy (policyId : String) : Option RetentionPolicy :=
  (engine.policies.get? policyId).bind fun i => engine.objects[i]?

def getDefaultPolicyForEntityType (entityType : DataEntityType) : Option RetentionPolicy :=
  (engine.entityDefaults.get? entityType).bind fun i => engine.objects[i]?

/-- The policy that a record names, if it names one: an empty id names none. -/
def policyOf (policyId : Option String) : Option RetentionPolicy :=
  (policyId.filter (· ≠ "")).bind engine.getPolicy

/-- `validatePolicyConfig`. The other fields are members of their enumerations. -/
def validatePolicyConfig (config : PolicyConfig) : Except String Unit :=
  if trim config.name = "" then .error "Policy name is required and cannot be empty" else .ok ()

/-- `createPolicy`; the id is drawn. -/
def createPolicy (config : PolicyConfig) (id : String) (now : Instant) :
    Except String (RetentionPolicy × PolicyEngine) :=
  match validatePolicyConfig config with
  | .error message => .error message
  | .ok () =>
    let policy : RetentionPolicy :=
      { toPolicyConfig := config, id := id, createdAt := now.date, updatedAt := now.date }
    .ok (policy,
      { engine with
        objects := engine.objects ++ [policy]
        policies := engine.policies.set id engine.objects.length })

def setDefaultPolicyForEntityType (entityType : DataEntityType) (policyId : String) :
    Except String PolicyEngine :=
  match engine.policies.get? policyId, engine.getPolicy policyId with
  | some i, some policy =>
    if policy.entityType ≠ entityType then
      .error ("Policy entity type mismatch: expected " ++ entityType.text ++ ", got " ++
        policy.entityType.text)
    else .ok { engine with entityDefaults := engine.entityDefaults.set entityType i }
  | _, _ => .error ("Policy not found: " ++ policyId)

structure PolicyUpdates where
  name : Option String := none
  description : Option String := none
  entityType : Option DataEntityType := none
  period : Option RetentionPeriod := none
  classification : Option DataClassification := none
  archivalType : Option ArchivalStorageType := none
  encryptArchive : Option Bool := none
  allowPermanentRetention : Option Bool := none
  isActive : Option Bool := none
  deriving DecidableEq

/-- `{ ...policy, ...updates, id, createdAt, updatedAt: new Date() }`. -/
def PolicyUpdates.apply (updates : PolicyUpdates) (policy : RetentionPolicy) (now : Instant) :
    RetentionPolicy where
  name := updates.name.getD policy.name
  description := updates.description.getD policy.description
  entityType := updates.entityType.getD policy.entityType
  period := updates.period.getD policy.period
  classification := updates.classification.getD policy.classification
  archivalType := updates.archivalType.getD policy.archivalType
  encryptArchive := updates.encryptArchive.getD policy.encryptArchive
  allowPermanentRetention := updates.allowPermanentRetention.getD policy.allowPermanentRetention
  isActive := updates.isActive.getD policy.isActive
  id := policy.id
  createdAt := policy.createdAt
  updatedAt := now.date

variable (policyId : String)

/-- `updatePolicy` stores a new object. -/
def updatePolicy (updates : PolicyUpdates) (now : Instant) :
    Except String (RetentionPolicy × PolicyEngine) :=
  match engine.getPolicy policyId with
  | none => .error ("Policy not found: " ++ policyId)
  | some policy =>
    let updated := updates.apply policy now
    match validatePolicyConfig updated.toPolicyConfig with
    | .error message => .error message
    | .ok () =>
      .ok (updated,
        { engine with
          objects := engine.objects ++ [updated]
          policies := engine.policies.set policyId engine.objects.length })

/-- `deactivatePolicy` writes to the stored object. -/
def deactivatePolicy (now : Instant) : Bool × PolicyEngine :=
  match engine.policies.get? policyId, engine.getPolicy policyId with
  | some i, some policy =>
    (true,
      { engine with
        objects := engine.objects.set i { policy with isActive := false, updatedAt := now.date } })
  | _, _ => (false, engine)

def deletePolicy : Bool × PolicyEngine :=
  (engine.policies.has policyId, { engine with policies := engine.policies.erase policyId })

def calculateExpirationDate (entityType : DataEntityType) (policyId : Option String)
    (createdAt : Date) : Date :=
  let effective := (engine.policyOf policyId).or (engine.getDefaultPolicyForEntityType entityType)
  let period :=
    match effective with
    | some policy => policy.period
    | none => resolvePeriod entityType []
  match createdAt.time with
  | some t => Date.ofTime (t + period.duration)
  | none => ⟨none⟩

end PolicyEngine

/-! ### Decisions -/

def shouldArchive (now : Instant) (data : RetainedData) : Bool :=
  !data.isArchived && data.expiresAt.le now.date

variable {now : Instant} {data : RetainedData}

theorem isArchived_of_shouldArchive (due : shouldArchive now data = true) : data.isArchived = false := by
  unfold shouldArchive at due
  revert due
  cases data.isArchived <;> simp

def shouldPermanentlyDelete (postArchivalDays : Nat) (now : Instant) (data : RetainedData) : Bool :=
  data.isArchived &&
    match data.archivedAt with
    | none => false
    | some archivedAt =>
      match archivedAt.time with
      | none => false
      | some t => (Date.ofTime (t + daysMs postArchivalDays)).le now.date

/-- The record was archived at least so many days ago. -/
def PastRetention (postArchivalDays : Nat) (now : Instant) (data : RetainedData) : Prop :=
  ∃ archivedAt ∈ data.archivedAt, ∃ t ∈ archivedAt.time, daysMs postArchivalDays ≤ now.ms - t

instance (days : Nat) (now : Instant) (data : RetainedData) :
    Decidable (PastRetention days now data) :=
  inferInstanceAs (Decidable (∃ archivedAt ∈ data.archivedAt, ∃ t ∈ archivedAt.time, _))

theorem daysMs_nonneg (days : Nat) : 0 ≤ daysMs days := by
  unfold daysMs
  omega

theorem le_date_iff {date : Date} : date.le now.date = true ↔ ∃ t ∈ date.time, t ≤ now.ms := by
  unfold Date.le Instant.date
  cases date.time <;> simp

theorem deadline_le_iff {t : Int} (least : -maxTime ≤ t) (days : Nat) :
    (Date.ofTime (t + daysMs days)).le now.date = true ↔ daysMs days ≤ now.ms - t := by
  have nonneg := daysMs_nonneg days
  have greatest := now.greatest
  rw [le_date_iff]
  unfold Date.ofTime
  split
  · simp only [Option.mem_def, Option.some.injEq, exists_eq_left']
    omega
  · simp only [Option.mem_def, reduceCtorEq, false_and, exists_false, false_iff]
    omega

theorem shouldPermanentlyDelete_iff {days : Nat} {at_ : Instant}
    (stamped : data.archivedAt = some at_.date) :
    shouldPermanentlyDelete days now data = true ↔
      data.isArchived = true ∧ PastRetention days now data := by
  simp only [shouldPermanentlyDelete, PastRetention, stamped, Bool.and_eq_true, Instant.date,
    Option.mem_def, Option.some.injEq, exists_eq_left']
  exact and_congr_right fun _ => deadline_le_iff at_.least days

end TalentTrust.Retention
