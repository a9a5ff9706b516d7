import TalentTrust.Lib.Text
import TalentTrust.Contracts.Repository

/-!
`ContractsService` and the request schemas of the contract routes.

Requests are typed: a field is absent or has a value of the JSON type the API
gives it. The service reads what the schemas have let through on the single
routes and whatever the batch carries on the bulk route, so its inputs keep every
field optional. `Creatable` and `Updatable` say what the service asks of its
input, and a call succeeds exactly when they hold (`createContract_ok_iff`,
`updateContract_ok_iff`). A call that fails leaves the store as it was, by the
type of its result.
-/

namespace TalentTrust.Contracts

open TalentTrust.Lib

/-! ### Requests -/

/-- What the code takes from its platform: addition of numbers (with no result
when it is not finite), the UUID and date-time formats of the schemas, and the
`MILESTONES_ENABLED` flag. -/
structure Host where
  plus : Decimal → Decimal → Option Decimal
  isUuid : String → Bool
  isDatetime : String → Bool
  milestonesEnabled : Bool

structure Milestone where
  title : Option String
  description : Option String
  amount : Option Decimal
  deadline : Option String
  deriving DecidableEq

/-- The body of a single request, or an item of a bulk request. -/
structure Item where
  action : Option String := none
  contractId : Option String := none
  id : Option String := none
  version : Option Decimal := none
  title : Option String := none
  description : Option String := none
  clientId : Option String := none
  freelancerId : Option String := none
  amount : Option Decimal := none
  budget : Option Decimal := none
  deadline : Option String := none
  status : Option String := none
  terms : Option String := none
  milestones : Option (List Milestone) := none
  deriving DecidableEq

/-- The input of `createContract`, apart from the fields it does not read. -/
structure CreateContractDto where
  title : Option String
  clientId : Option String
  freelancerId : Option String
  budget : Option Decimal
  status : Option String
  milestones : Option (List Milestone)
  deriving DecidableEq

/-- The input of `updateContract`. `amount` is not one of its fields, but the bulk
controller passes one. -/
structure UpdateContractDto where
  version : Option Decimal := none
  title : Option String := none
  description : Option String := none
  freelancerId : Option String := none
  clientId : Option String := none
  budget : Option Decimal := none
  deadline : Option String := none
  status : Option String := none
  terms : Option String := none
  milestones : Option (List Milestone) := none
  amount : Option Decimal := none
  deriving DecidableEq

/-! ### Schemas -/

def maxContractAmountStroops : Decimal := Decimal.ofNat 100000000000000

def maxMilestonesPerContract : Nat := 20

def lengthIn (low high : Nat) (s : String) : Bool := low ≤ jsLength s && jsLength s ≤ high

/-- A positive number up to the maximum amount. -/
def amountField (d : Decimal) : Bool := zero.less d && !maxContractAmountStroops.less d

def datetimeField (host : Host) (s : String) : Bool := lengthIn 0 64 s && host.isDatetime s

def statusOf? : String → Option ContractStatus
  | "draft" => some .draft
  | "active" => some .active
  | "completed" => some .completed
  | "disputed" => some .disputed
  | "cancelled" => some .cancelled
  | _ => none

variable (host : Host)

def createMilestoneSchema (m : Milestone) : Bool :=
  m.title.any (lengthIn 1 100) && m.description.all (lengthIn 0 500) && m.amount.any amountField &&
    m.deadline.all (datetimeField host)

def updateMilestoneSchema (m : Milestone) : Bool :=
  m.title.any (lengthIn 1 100) && m.description.any (lengthIn 1 500) && m.amount.any amountField &&
    m.deadline.all (datetimeField host)

def createContractSchema (body : Item) : Bool :=
  body.title.any (lengthIn 5 100) && body.description.any (lengthIn 10 1000) &&
    body.freelancerId.all host.isUuid && body.clientId.any host.isUuid &&
    body.budget.any amountField && body.deadline.all (datetimeField host) &&
    body.status.all (fun s => (statusOf? s).isSome) && body.terms.all (lengthIn 0 5000) &&
    body.milestones.all (fun ms => ms.all (createMilestoneSchema host))

def updateContractSchema (body : UpdateContractDto) : Bool :=
  body.version.any (fun v => v.toNat?.isSome) && body.title.all (lengthIn 5 100) &&
    body.description.all (lengthIn 10 1000) && body.freelancerId.all host.isUuid &&
    body.clientId.all host.isUuid && body.budget.all amountField &&
    body.deadline.all (datetimeField host) && body.status.all (fun s => (statusOf? s).isSome) &&
    body.terms.all (lengthIn 0 5000) &&
    body.milestones.all (fun ms => ms.all (updateMilestoneSchema host))

/-! ### The store -/

/-- What a new contract takes from the platform: `randomUUID()` and the time. -/
structure Fresh where
  id : String
  now : String
  deriving DecidableEq

inductive ServiceError where
  | bounds (message : String)
  | missingVersion
  | invalidVersion
  | noFields
  | invalidStatus (status : String)
  | notFound
  | versionConflict
  | sqlite (error : SqliteError)
  deriving DecidableEq

structure CreateContractInput where
  title : Option String
  clientId : Option String
  freelancerId : String
  amount : Decimal
  status : String
  deriving DecidableEq

/-- The constraints on a new row: a fresh primary key, a non-negative amount, and
two known users. -/
def Insertable (store : Store) (row : Contract) : Prop :=
  store.contracts.has row.id = false ∧ row.amount.less zero = false ∧
    row.clientId ∈ store.users ∧ row.freelancerId ∈ store.users

instance (store : Store) (row : Contract) : Decidable (Insertable store row) :=
  inferInstanceAs (Decidable (_ ∧ _ ∧ _ ∧ _))

/-- The row of a new contract, unless a column that may not be null has no value. -/
def CreateContractInput.row? (data : CreateContractInput) (status : ContractStatus) (fresh : Fresh) :
    Option Contract :=
  match data.title, data.clientId with
  | some title, some clientId =>
    some { id := fresh.id, title, clientId, freelancerId := data.freelancerId, amount := data.amount,
           status, createdAt := fresh.now, version := 0, deletedAt := none }
  | _, _ => none

def Store.insert (store : Store) (row : Contract) : Store :=
  { store with contracts := store.contracts.set row.id row }

def create (store : Store) (data : CreateContractInput) (fresh : Fresh) :
    Except ServiceError (Contract × Store) :=
  match statusOf? data.status with
  | none => .error (.invalidStatus data.status)
  | some status =>
    match data.row? status fresh with
    | none => .error (.sqlite .constraint)
    | some row =>
      if Insertable store row then .ok (row, store.insert row) else .error (.sqlite .constraint)

/-- The columns of `updateWithVersion`, before the table has checked them. -/
structure UpdateFields where
  title : Option String
  status : Option String
  amount : Option Decimal
  freelancerId : Option String
  deriving DecidableEq

def UpdateFields.fields (f : UpdateFields) : ContractFields where
  title := f.title
  status := f.status.bind statusOf?
  amount := f.amount
  freelancerId := f.freelancerId

/-- The constraints on an update, a known status among them. -/
def Storable (store : Store) (f : UpdateFields) : Prop :=
  (f.status.all fun s => (statusOf? s).isSome) = true ∧ admits store.users f.fields = true

instance (store : Store) (f : UpdateFields) : Decidable (Storable store f) :=
  inferInstanceAs (Decidable (_ ∧ _))

/-- `updateWithVersion` run to its end, with the constraints of the table. -/
def updateWithVersion (store : Store) (id : String) (f : UpdateFields) (expectedVersion : Nat) :
    Except ServiceError (Contract × Store) :=
  match Sqlite.findById store id with
  | .error e => .error (.sqlite e)
  | .ok none => .error .notFound
  | .ok (some existing) =>
    if existing.version ≠ expectedVersion then .error .versionConflict
    else if Storable store f then
      let updated := existing.updated f.fields
      .ok (updated, { store with contracts := store.contracts.set id updated })
    else .error (.sqlite .constraint)

def UpdateError.toService : UpdateError → ServiceError
  | .notFound _ => .notFound
  | .versionConflict => .versionConflict
  | .sqlite e => .sqlite e

/-- For a known status this is the interruptible `updateWithVersion` with nothing in between. -/
theorem updateWithVersion_eq_proceed (store : Store) (id : String) {f : UpdateFields} (version : Nat)
    (known : (f.status.all fun s => (statusOf? s).isSome) = true) :
    let first := Sqlite.proceed store (Sqlite.begin store ⟨id, f.fields, version⟩)
    let second := Sqlite.proceed first.1 first.2
    ∃ result, second.2.phase = .returned result ∧
      match updateWithVersion store id f version with
      | .ok (c, store') => result = .ok c ∧ second.1 = store'
      | .error e => (∃ e', result = .error e' ∧ e'.toService = e) ∧ second.1 = store := by
  unfold updateWithVersion Sqlite.begin
  cases read : Sqlite.findById store id with
  | error e => simp [Sqlite.proceed, UpdateError.toService]
  | ok found =>
    cases found with
    | none => simp [Sqlite.proceed, notFoundError, UpdateError.toService]
    | some c =>
      by_cases same : c.version = version
      · by_cases takes : admits store.users f.fields = true
        · simp [Sqlite.proceed, Sqlite.updateRow, read, Option.filter_some, same, Storable, known, takes]
        · simp [Sqlite.proceed, Sqlite.updateRow, read, Option.filter_some, same, Storable, takes, UpdateError.toService]
      · simp [Sqlite.proceed, Sqlite.updateRow, read, Option.filter_some, same, UpdateError.toService]

def delete (store : Store) (id now : String) : Except ServiceError Store :=
  match Sqlite.findById store id with
  | .error e => .error (.sqlite e)
  | .ok none => .error .notFound
  | .ok (some c) => .ok { store with contracts := store.contracts.set id { c with deletedAt := some now } }

/-! ### Bounds -/

/-- The loop of `validateContractBounds` over the milestones, which returns its error. -/
def totalWithin (host : Host) : Decimal → List Milestone → Option String
  | _, [] => none
  | total, m :: ms =>
    match m.amount with
    | none => some "Each milestone must be an object with a finite numeric amount"
    | some amount =>
      match (host.plus total amount).filter fun total' => !maxContractAmountStroops.less total' with
      | none => some "Total milestone amount exceeds maximum contract amount of 100000000000000 stroops"
      | some total' => totalWithin host total' ms

/-- `validateContractBounds`; a valid result carries the budget it has found to be a number. -/
def validateContractBounds (budget : Option Decimal) (milestones : Option (List Milestone)) :
    Except String Decimal :=
  match budget with
  | none => .error "Budget must be a finite number"
  | some budget =>
    if maxContractAmountStroops.less budget then
      .error "Budget exceeds maximum contract amount of 100000000000000 stroops"
    else match milestones with
      | none => .ok budget
      | some ms =>
        if maxMilestonesPerContract < ms.length then
          .error ("Milestone count " ++ Nat.repr ms.length ++ " exceeds maximum of 20")
        else match totalWithin host zero ms with
          | some message => .error message
          | none => .ok budget

/-- The sum of the milestone amounts, as far as it is a finite number. -/
def milestoneTotal (host : Host) : Decimal → List Milestone → Option Decimal
  | total, [] => some total
  | total, m :: ms => (m.amount.bind (host.plus total)).bind fun total' => milestoneTotal host total' ms

/-! ### The service -/

def effectiveMilestones (milestones : Option (List Milestone)) : Option (List Milestone) :=
  if host.milestonesEnabled then milestones else none

/-- The check that the milestones together stay within the budget. A total that
is not finite has failed the bounds before. -/
def budgetError (budget : Decimal) : Option (List Milestone) → Option String
  | none | some [] => none
  | some milestones =>
    match milestoneTotal host zero milestones with
    | none => none
    | some total =>
      if budget.less total then
        some ("Total milestone amount exceeds maximum contract amount (milestones total " ++
          String.ofList total.chars ++ " exceeds budget of " ++ String.ofList budget.chars ++ ")")
      else none

/-- `effectiveData.status || "draft"`. -/
def CreateContractDto.statusText (data : CreateContractDto) : String :=
  (data.status.filter (· ≠ "")).getD "draft"

/-- The checks of `createContract`, which give the budget. -/
def checkCreate (budget : Option Decimal) (milestones : Option (List Milestone)) :
    Except ServiceError Decimal :=
  match validateContractBounds host budget (effectiveMilestones host milestones) with
  | .error message => .error (.bounds message)
  | .ok budget =>
    match budgetError host budget (effectiveMilestones host milestones) with
    | some message => .error (.bounds message)
    | none => .ok budget

def createContract (store : Store) (data : CreateContractDto) (fresh : Fresh) :
    Except ServiceError (Contract × Store) :=
  match checkCreate host data.budget data.milestones with
  | .error e => .error e
  | .ok budget =>
    create store
      { title := data.title
        clientId := data.clientId
        freelancerId := data.freelancerId.getD ""
        amount := budget
        status := data.statusText } fresh

def UpdateContractDto.hasFields (dto : UpdateContractDto) : Bool :=
  dto.title.isSome || dto.description.isSome || dto.freelancerId.isSome || dto.clientId.isSome ||
    dto.budget.isSome || dto.deadline.isSome || dto.status.isSome || dto.terms.isSome ||
    dto.milestones.isSome || dto.amount.isSome

def UpdateContractDto.updateFields (dto : UpdateContractDto) : UpdateFields where
  title := dto.title
  status := dto.status
  amount := dto.budget
  freelancerId := dto.freelancerId

variable (host : Host) (dto : UpdateContractDto)

/-- The bounds check of an update, made when a budget or milestones are given. -/
def updateBounds : Option String :=
  if dto.budget.isSome || dto.milestones.isSome then
    match validateContractBounds host (some (dto.budget.getD zero)) dto.milestones with
    | .error message => some message
    | .ok _ => none
  else none

/-- The payload without its milestones when the feature is off. -/
def UpdateContractDto.effective : UpdateContractDto :=
  { dto with milestones := effectiveMilestones host dto.milestones }

/-- The checks of `updateContract`, which give the version. -/
def checkUpdate : Except ServiceError Nat :=
  match dto.version with
  | none => .error .missingVersion
  | some version =>
    match version.toNat? with
    | none => .error .invalidVersion
    | some version =>
      if (dto.effective host).hasFields then
        match updateBounds host (dto.effective host) with
        | some message => .error (.bounds message)
        | none => .ok version
      else .error .noFields

def updateContract (store : Store) (id : String) (dto : UpdateContractDto) :
    Except ServiceError (Contract × Store) :=
  match checkUpdate host dto with
  | .error e => .error e
  | .ok version => updateWithVersion store id dto.updateFields version

/-! ### When the service accepts -/

/-- The row a creation inserts, if its data make one. -/
def CreateContractDto.row? (data : CreateContractDto) (fresh : Fresh) : Option Contract :=
  match statusOf? data.statusText, data.title, data.clientId, data.budget with
  | some status, some title, some clientId, some budget =>
    some { id := fresh.id, title, clientId, freelancerId := data.freelancerId.getD "",
           amount := budget, status, createdAt := fresh.now, version := 0, deletedAt := none }
  | _, _, _, _ => none

/-- What `createContract` asks for: budget and milestones within bounds, the
milestones within the budget, and a row that the table takes. -/
structure Creatable (store : Store) (data : CreateContractDto) (fresh : Fresh)
    (row : Contract) : Prop where
  bounds : validateContractBounds host data.budget (effectiveMilestones host data.milestones) =
    .ok row.amount
  budget : budgetError host row.amount (effectiveMilestones host data.milestones) = none
  made : data.row? fresh = some row
  insertable : Insertable store row

/-- What `updateContract` asks for, when it finds the contract `c`: its version, some
field, bounds, and values that the table takes. -/
structure Updatable (store : Store) (dto : UpdateContractDto) (c : Contract) : Prop where
  version : dto.version.bind Decimal.toNat? = some c.version
  fields : (dto.effective host).hasFields = true
  bounds : updateBounds host (dto.effective host) = none
  storable : Storable store dto.updateFields

theorem budget_of_bounds {host : Host} {budget : Option Decimal} {milestones : Option (List Milestone)}
    {b : Decimal} (valid : validateContractBounds host budget milestones = .ok b) : budget = some b := by
  unfold validateContractBounds at valid
  repeat' split at valid
  all_goals cases valid
  all_goals rfl

theorem create_ok_iff (store : Store) (data : CreateContractInput) (fresh : Fresh)
    (out : Contract × Store) :
    create store data fresh = .ok out ↔
      ((statusOf? data.status).bind fun status => data.row? status fresh) = some out.1 ∧
        Insertable store out.1 ∧ out.2 = store.insert out.1 := by
  obtain ⟨row, store'⟩ := out
  unfold create
  cases statusOf? data.status with
  | none => simp
  | some status =>
    simp only [Option.bind_some]
    cases data.row? status fresh with
    | none => simp
    | some made =>
      by_cases takes : Insertable store made
      · simp only [takes, if_true, Except.ok.injEq, Prod.mk.injEq, Option.some.injEq]
        constructor
        · rintro ⟨rfl, rfl⟩
          exact ⟨rfl, takes, rfl⟩
        · rintro ⟨rfl, -, rfl⟩
          exact ⟨rfl, rfl⟩
      · simp only [takes, if_false, reduceCtorEq, Option.some.injEq, false_iff]
        rintro ⟨rfl, held, -⟩
        exact takes held

theorem row?_eq (data : CreateContractDto) (fresh : Fresh) {b : Decimal} (budget : data.budget = some b) :
    data.row? fresh = (statusOf? data.statusText).bind fun status =>
      CreateContractInput.row? ⟨data.title, data.clientId, data.freelancerId.getD "", b, data.statusText⟩
        status fresh := by
  unfold CreateContractDto.row? CreateContractInput.row?
  rw [budget]
  cases statusOf? data.statusText <;> cases data.title <;> cases data.clientId <;> rfl

theorem amount_of_row? {data : CreateContractDto} {fresh : Fresh} {row : Contract}
    (made : data.row? fresh = some row) : data.budget = some row.amount := by
  unfold CreateContractDto.row? at made
  split at made
  · rename_i budget
    cases made
    exact budget
  · cases made

theorem id_of_row? {data : CreateContractDto} {fresh : Fresh} {row : Contract}
    (made : data.row? fresh = some row) : row.id = fresh.id := by
  unfold CreateContractDto.row? at made
  split at made
  · cases made
    rfl
  · cases made

theorem checkCreate_ok_iff {budget : Option Decimal} {milestones : Option (List Milestone)} {b : Decimal} :
    checkCreate host budget milestones = .ok b ↔
      validateContractBounds host budget (effectiveMilestones host milestones) = .ok b ∧
        budgetError host b (effectiveMilestones host milestones) = none := by
  unfold checkCreate
  cases validateContractBounds host budget (effectiveMilestones host milestones) with
  | error message => simp
  | ok found =>
    cases within : budgetError host found (effectiveMilestones host milestones) with
    | none =>
      simp only [within, Except.ok.injEq]
      exact ⟨fun same => ⟨same, same ▸ within⟩, And.left⟩
    | some message =>
      simp only [within, reduceCtorEq, Except.ok.injEq, false_iff]
      rintro ⟨rfl, none⟩
      rw [within] at none
      cases none

theorem createContract_ok_iff (store : Store) (data : CreateContractDto) (fresh : Fresh)
    (out : Contract × Store) :
    createContract host store data fresh = .ok out ↔
      Creatable host store data fresh out.1 ∧ out.2 = store.insert out.1 := by
  unfold createContract
  constructor
  · intro done
    split at done
    · cases done
    · rename_i b checked
      obtain ⟨valid, within⟩ := (checkCreate_ok_iff host).mp checked
      obtain ⟨made, insertable, stored⟩ := (create_ok_iff _ _ _ _).mp done
      rw [← row?_eq data fresh (budget_of_bounds valid)] at made
      have amount : b = out.1.amount :=
        Option.some.inj ((budget_of_bounds valid).symm.trans (amount_of_row? made))
      exact ⟨⟨amount ▸ valid, amount ▸ within, made, insertable⟩, stored⟩
  · rintro ⟨⟨bounds, budget, made, insertable⟩, stored⟩
    rw [(checkCreate_ok_iff host).mpr ⟨bounds, budget⟩]
    refine (create_ok_iff _ _ _ _).mpr ⟨?_, insertable, stored⟩
    rw [← row?_eq data fresh (budget_of_bounds bounds)]
    exact made

theorem updateWithVersion_ok_iff (store : Store) (id : String) (f : UpdateFields) (version : Nat)
    (out : Contract × Store) :
    updateWithVersion store id f version = .ok out ↔
      ∃ c, Sqlite.findById store id = .ok (some c) ∧ c.version = version ∧ Storable store f ∧
        out = (c.updated f.fields,
          { store with contracts := store.contracts.set id (c.updated f.fields) }) := by
  unfold updateWithVersion
  cases Sqlite.findById store id with
  | error e => simp
  | ok found =>
    cases found with
    | none => simp
    | some c =>
      by_cases same : c.version = version
      · by_cases storable : Storable store f
        · simp [same, storable, eq_comm]
        · simp [same, storable]
      · simp [same]

theorem checkUpdate_ok_iff {version : Nat} :
    checkUpdate host dto = .ok version ↔ dto.version.bind Decimal.toNat? = some version ∧
      (dto.effective host).hasFields = true ∧ updateBounds host (dto.effective host) = none := by
  unfold checkUpdate
  cases dto.version with
  | none => simp
  | some v =>
    cases integer : v.toNat? with
    | none => simp [integer]
    | some n =>
      by_cases fields : (dto.effective host).hasFields = true
      · cases updateBounds host (dto.effective host) <;> simp [integer, fields]
      · simp [integer, fields]

theorem updateContract_ok_iff (store : Store) (id : String) (dto : UpdateContractDto)
    (out : Contract × Store) :
    updateContract host store id dto = .ok out ↔
      ∃ c, Sqlite.findById store id = .ok (some c) ∧ Updatable host store dto c ∧
        out = (c.updated dto.updateFields.fields,
          { store with contracts := store.contracts.set id (c.updated dto.updateFields.fields) }) := by
  unfold updateContract
  constructor
  · intro done
    split at done
    · cases done
    · rename_i version checked
      obtain ⟨given, fields, bounds⟩ := (checkUpdate_ok_iff host dto).mp checked
      obtain ⟨c, found, rfl, storable, result⟩ := (updateWithVersion_ok_iff _ _ _ _ _).mp done
      exact ⟨c, found, ⟨given, fields, bounds, storable⟩, result⟩
  · rintro ⟨c, found, ⟨version, fields, bounds, storable⟩, result⟩
    rw [(checkUpdate_ok_iff host dto).mpr ⟨version, fields, bounds⟩]
    exact (updateWithVersion_ok_iff _ _ _ _ _).mpr ⟨c, found, rfl, storable, result⟩

end TalentTrust.Contracts
