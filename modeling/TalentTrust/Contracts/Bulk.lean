import TalentTrust.Auth.Authorization
import TalentTrust.Contracts.Service

/-!
The bulk route against the single routes of contracts.

`POST /contracts/bulk` asks once for the permission to create contracts and then
runs every item through the service, without the permission, ownership and schema
checks of `POST /`, `PATCH /:id` and `DELETE /:id`; a bulk deletion does not delete
but updates the milestones to none. `bulk_agrees_iff` says exactly when a batch
does to each item what the single request of the same caller would do.

The single request of an item is `POST /` with the item as its body, `PATCH /:id`
with the item's fields (its `amount`, if it has one, as the `budget`), or
`DELETE /:id`. Both kinds of request carry an idempotency key that is new.
-/

namespace TalentTrust.Contracts

open TalentTrust.Lib
open TalentTrust.Auth

/-! ### Items -/

inductive Kind where
  | create
  | update
  | delete
  | other
  deriving DecidableEq, Repr

variable (item : Item)

/-- `item.action ?? "create"`. -/
def Item.kind : Kind :=
  match item.action.getD "create" with
  | "create" => .create
  | "update" => .update
  | "delete" => .delete
  | _ => .other

/-- `item.contractId ?? item.id`, or nothing. -/
def Item.target : String := (item.contractId.or item.id).getD ""

def Item.patch : UpdateContractDto where
  version := item.version
  title := item.title
  description := item.description
  freelancerId := item.freelancerId
  clientId := item.clientId
  budget := item.amount.or item.budget
  deadline := item.deadline
  status := item.status
  terms := item.terms
  milestones := item.milestones

/-- What the bulk controller passes to `updateContract` for an update. -/
def Item.bulkUpdate : UpdateContractDto where
  version := item.version
  title := item.title
  description := item.description
  amount := item.amount.or item.budget
  status := item.status
  milestones := item.milestones

/-- What it passes for a deletion. -/
def Item.bulkDelete : UpdateContractDto where
  version := item.version
  milestones := some []

def defaultFreelancerId : String := "00000000-0000-0000-0000-000000000012"

/-- What it passes to `createContract`. -/
def Item.bulkCreate : CreateContractDto where
  title := item.title
  clientId := item.clientId
  freelancerId := some (item.freelancerId.getD defaultFreelancerId)
  budget := item.budget
  status := item.status
  milestones := item.milestones

/-- `toCreateContractDto` of the body that `createContractSchema` returns, with a
trimmed title. -/
def Item.parsedCreate : CreateContractDto where
  title := item.title.map trim
  clientId := item.clientId
  freelancerId := item.freelancerId
  budget := item.budget
  status := item.status
  milestones := item.milestones

/-- `toUpdateContractDto` of the body that `updateContractSchema` returns. -/
def Item.parsedPatch : UpdateContractDto :=
  { item.patch with title := item.title.map trim, description := item.description.map trim }

/-! ### The single routes -/

def ServiceError.status : ServiceError → Nat
  | .bounds _ => 422
  | .missingVersion | .invalidVersion => 400
  | .notFound => 404
  | .versionConflict => 409
  | .noFields | .invalidStatus _ | .sqlite _ => 500

/-- What becomes of a request: its status and the store after it. -/
abbrev Outcome := Nat × Store

def outcome {α : Type} (okStatus : Nat) (errorStatus : ServiceError → Nat) (store : Store)
    (newStore : α → Store) : Except ServiceError α → Outcome
  | .ok a => (okStatus, newStore a)
  | .error e => (errorStatus e, store)

variable (host : Host) (caller : User)

/-- `POST /`. -/
def postContract (store : Store) (item : Item) (fresh : Fresh) : Outcome :=
  match requirePermission caller .contracts .create with
  | .granted =>
    if createContractSchema host item then
      outcome 201 ServiceError.status store Prod.snd (createContract host store item.parsedCreate fresh)
    else (400, store)
  | .forbidden => (403, store)
  | .notFound => (404, store)

/-- `validateContractId`. -/
def validContractId (id : String) : Bool := lengthIn 1 128 id

variable (store : Store)

/-- `getContractOwnerId`. -/
def ownerOf (id : String) : Except SqliteError (Option String) :=
  (Sqlite.findById store id).map (Option.map Contract.clientId)

/-- `requirePermission(…, getContractOwnerId)`, which answers with a 500 when the look-up throws. -/
def requireOwner (action : Action) (id : String) : Option Permission :=
  match ownerOf store id with
  | .error _ => none
  | .ok owner => some (requireOwnPermission caller .contracts action owner)

/-- `PATCH /:id`. -/
def patchContract (item : Item) : Outcome :=
  if validContractId item.target then
    match requireOwner caller store .update item.target with
    | some .granted =>
      if updateContractSchema host item.patch then
        outcome 200 ServiceError.status store Prod.snd
          (updateContract host store item.target item.parsedPatch)
      else (400, store)
    | some .forbidden => (403, store)
    | some .notFound => (404, store)
    | none => (500, store)
  else (400, store)

/-- `DELETE /:id`. -/
def deleteContract (item : Item) (fresh : Fresh) : Outcome :=
  if validContractId item.target then
    match requireOwner caller store .delete item.target with
    | some .granted => outcome 200 ServiceError.status store id (delete store item.target fresh.now)
    | some .forbidden => (403, store)
    | some .notFound => (404, store)
    | none => (500, store)
  else (400, store)

def single (item : Item) (fresh : Fresh) : Outcome :=
  match item.kind with
  | .create => postContract host caller store item fresh
  | .update => patchContract host caller store item
  | .delete => deleteContract caller store item fresh
  | .other => (404, store)

/-! ### The bulk route -/

/-- `mapErrorToItemResult`. The errors about a missing or invalid version mention
the word, and so become conflicts. -/
def ServiceError.itemCode : ServiceError → Nat
  | .bounds _ => 422
  | .notFound => 404
  | .versionConflict | .missingVersion | .invalidVersion => 409
  | .noFields | .invalidStatus _ | .sqlite _ => 400

def processSingleCreateItem (store : Store) (item : Item) (fresh : Fresh) : Outcome :=
  match item.kind with
  | .delete => outcome 200 ServiceError.itemCode store Prod.snd
      (updateContract host store item.target item.bulkDelete)
  | .update => outcome 200 ServiceError.itemCode store Prod.snd
      (updateContract host store item.target item.bulkUpdate)
  | .create | .other => outcome 201 ServiceError.itemCode store Prod.snd
      (createContract host store item.bulkCreate fresh)

def badMilestone (m : Milestone) : Bool :=
  !(m.title.any fun t => !isBlank t) || !(m.amount.any fun a => zero.less a)

/-- The structural check of one item: the message of the 400 response, if any. -/
def structuralError : Option String :=
  match item.kind with
  | .other => some ("Invalid action '" ++ item.action.getD "create" ++ "'")
  | .delete | .update =>
    if item.target = "" ∨ item.version = none then some "contractId and version required" else none
  | .create =>
    if item.milestones = some [] then some "milestones array is required"
    else if item.milestones.any (fun ms => ms.any badMilestone) then some "invalid milestone values"
    else if item.clientId = some "invalid-uuid" then some "invalid clientId UUID"
    else none

/-- The response to the batch as a whole, when no item of it is processed: 403
without the permission, 400 for a batch that is empty, too large or malformed. -/
def batchRefusal (items : List Item) : Option Nat :=
  match requirePermission caller .contracts .create with
  | .forbidden => some 403
  | .notFound => some 404
  | .granted =>
    if items = [] ∨ 25 < items.length then some 400
    else if items.any fun item => (structuralError item).isSome then some 400
    else none

/-- How one item fared: its status, and the store before and after it. -/
structure Visit where
  code : Nat
  before : Store
  after : Store
  deriving DecidableEq

def processAll : Store → List (Item × Fresh) → List Visit
  | _, [] => []
  | store, (item, fresh) :: rest =>
    let result := processSingleCreateItem host store item fresh
    ⟨result.1, store, result.2⟩ :: processAll result.2 rest

/-- `POST /bulk`. -/
def bulk (items : List (Item × Fresh)) : List Visit :=
  match batchRefusal caller (items.map Prod.fst) with
  | some code => items.map fun _ => ⟨code, store, store⟩
  | none => processAll host store items

/-! ### The property -/

inductive OutcomeClass where
  | performed
  | refused
  | failed
  deriving DecidableEq, Repr

def classify (code : Nat) : OutcomeClass :=
  if 200 ≤ code ∧ code < 300 then .performed else if code = 403 then .refused else .failed

/-- The item fared as its single request would have in the state before it. -/
def AsSingle (item : Item × Fresh) (visit : Visit) : Prop :=
  classify visit.code = classify (single host caller visit.before item.1 item.2).1 ∧
    visit.after = (single host caller visit.before item.1 item.2).2

instance (item : Item × Fresh) (visit : Visit) : Decidable (AsSingle host caller item visit) :=
  inferInstanceAs (Decidable (_ ∧ _))

def BulkAsSingle (items : List (Item × Fresh)) : Prop :=
  List.Forall₂ (AsSingle host caller) items (bulk host caller store items)

/-! ### The condition -/

/-- The caller may not do to the contract what the single request asks. -/
def SingleRefused (store : Store) (item : Item) : Prop :=
  match item.kind with
  | .create => requirePermission caller .contracts .create = .forbidden
  | .update => validContractId item.target = true ∧
      requireOwner caller store .update item.target = some .forbidden
  | .delete => validContractId item.target = true ∧
      requireOwner caller store .delete item.target = some .forbidden
  | .other => False

variable (store : Store) (item : Item) (fresh : Fresh)

/-- The caller may do what the single request asks, and its schema and the service
accept it. -/
def SingleAccepted : Prop :=
  match item.kind with
  | .create => requirePermission caller .contracts .create = .granted ∧
      createContractSchema host item = true ∧ ∃ row, Creatable host store item.parsedCreate fresh row
  | .update => validContractId item.target = true ∧
      requireOwner caller store .update item.target = some .granted ∧
      updateContractSchema host item.patch = true ∧
      ∃ c, Sqlite.findById store item.target = .ok (some c) ∧
        Updatable host store item.parsedPatch c
  | .delete => validContractId item.target = true ∧
      requireOwner caller store .delete item.target = some .granted
  | .other => False

/-- The service accepts what the bulk controller passes. -/
def BulkAccepted : Prop :=
  match item.kind with
  | .create | .other => ∃ row, Creatable host store item.bulkCreate fresh row
  | .update => ∃ c, Sqlite.findById store item.target = .ok (some c) ∧
      Updatable host store item.bulkUpdate c
  | .delete => ∃ c, Sqlite.findById store item.target = .ok (some c) ∧
      Updatable host store item.bulkDelete c

/-- What the item writes in bulk is what its single request writes: a creation
names its freelancer and has no blanks around its title; an update brings the
stored contract no other title by trimming, no new amount, and no new freelancer;
a deletion never does. -/
def SameFields : Prop :=
  match item.kind with
  | .create => item.title.map trim = item.title ∧ item.freelancerId ≠ none
  | .update => ∀ c, Sqlite.findById store item.target = .ok (some c) →
      (item.title.map trim).getD c.title = item.title.getD c.title ∧
      (item.amount.or item.budget).getD c.amount = c.amount ∧
      item.freelancerId.getD c.freelancerId = c.freelancerId
  | .delete | .other => False

/-- The condition on one item, in the state before it. -/
def ItemAgrees (p : Item × Fresh) : Prop :=
  ¬ SingleRefused caller store p.1 ∧
  (SingleAccepted host caller store p.1 p.2 ↔ BulkAccepted host store p.1 p.2) ∧
  (BulkAccepted host store p.1 p.2 → SameFields store p.1)

/-- The condition on a batch. A batch that is refused as a whole agrees if every
item would have been; one that is malformed, if every item would have failed; and
any other, if each item agrees in the state left by the items before it. -/
def BatchAgrees (items : List (Item × Fresh)) : Prop :=
  match batchRefusal caller (items.map Prod.fst) with
  | some 403 => ∀ p ∈ items, SingleRefused caller store p.1
  | some _ => ∀ p ∈ items, ¬ SingleRefused caller store p.1 ∧ ¬ SingleAccepted host caller store p.1 p.2
  | none => Along (fun store p => (processSingleCreateItem host store p.1 p.2).2)
      (ItemAgrees host caller) store items

variable {host} {caller}

/-! ### How the routes end -/

theorem classify_status (e : ServiceError) : classify e.status = .failed := by
  cases e <;> rfl

theorem classify_itemCode (e : ServiceError) : classify e.itemCode = .failed := by
  cases e <;> rfl

section Outcomes

variable {α : Type} {okStatus : Nat} {errorStatus : ServiceError → Nat} {store : Store}
  {newStore : α → Store} {result : Except ServiceError α}

theorem outcome_of_ok {a : α} (done : result = .ok a) :
    outcome okStatus errorStatus store newStore result = (okStatus, newStore a) := by
  rw [done]
  rfl

theorem outcome_of_not_ok (failing : ∀ e, classify (errorStatus e) = .failed)
    (fails : ∀ a, result ≠ .ok a) :
    classify (outcome okStatus errorStatus store newStore result).1 = .failed ∧
      (outcome okStatus errorStatus store newStore result).2 = store := by
  cases result with
  | error e => exact ⟨failing e, rfl⟩
  | ok a => exact absurd rfl (fails a)

end Outcomes

variable {store : Store} {item : Item}

theorem single_of_refused (refused : SingleRefused caller store item) :
    single host caller store item fresh = (403, store) := by
  unfold SingleRefused at refused
  unfold single
  split at refused
  · simp [postContract, refused]
  · simp [patchContract, refused.1, refused.2]
  · simp [deleteContract, refused.1, refused.2]
  · exact refused.elim

/-- `requirePermission` has no third answer where there is no owner to look up. -/
theorem requirePermission_cases (user : User) (resource : Resource) (action : Action) :
    requirePermission user resource action = .granted ∨
      requirePermission user resource action = .forbidden := by
  unfold requirePermission
  split
  · exact .inl rfl
  · exact .inr rfl

variable {fresh : Fresh}

theorem single_of_failed (allowed : ¬ SingleRefused caller store item)
    (rejected : ¬ SingleAccepted host caller store item fresh) :
    classify (single host caller store item fresh).1 = .failed ∧
      (single host caller store item fresh).2 = store := by
  unfold SingleRefused at allowed
  unfold SingleAccepted at rejected
  unfold single
  cases kind : item.kind with
  | create =>
    simp only [kind] at allowed rejected ⊢
    have granted := (requirePermission_cases caller .contracts .create).resolve_right allowed
    simp only [postContract, granted]
    split
    · rename_i valid
      refine outcome_of_not_ok classify_status fun out done => rejected ⟨granted, valid, out.1, ?_⟩
      exact ((createContract_ok_iff _ _ _ _ _).mp done).1
    · exact ⟨rfl, rfl⟩
  | update =>
    simp only [kind] at allowed rejected ⊢
    unfold patchContract
    split
    · rename_i validId
      split
      · rename_i granted
        split
        · rename_i valid
          refine outcome_of_not_ok classify_status fun out done => ?_
          obtain ⟨c, found, updatable, -⟩ := (updateContract_ok_iff _ _ _ _ _).mp done
          exact rejected ⟨validId, granted, valid, c, found, updatable⟩
        · exact ⟨rfl, rfl⟩
      · rename_i forbidden
        exact absurd ⟨validId, forbidden⟩ allowed
      · exact ⟨rfl, rfl⟩
      · exact ⟨rfl, rfl⟩
    · exact ⟨rfl, rfl⟩
  | delete =>
    simp only [kind] at allowed rejected ⊢
    unfold deleteContract
    split
    · rename_i validId
      split
      · rename_i granted
        exact absurd ⟨validId, granted⟩ rejected
      · rename_i forbidden
        exact absurd ⟨validId, forbidden⟩ allowed
      · exact ⟨rfl, rfl⟩
      · exact ⟨rfl, rfl⟩
    · exact ⟨rfl, rfl⟩
  | other => exact ⟨rfl, rfl⟩

theorem process_of_rejected (rejected : ¬ BulkAccepted host store item fresh) :
    classify (processSingleCreateItem host store item fresh).1 = .failed ∧
      (processSingleCreateItem host store item fresh).2 = store := by
  unfold BulkAccepted at rejected
  unfold processSingleCreateItem
  split at rejected
  iterate 2
    rename_i kind
    simp only [kind]
    refine outcome_of_not_ok classify_itemCode fun out done => rejected ⟨out.1, ?_⟩
    exact ((createContract_ok_iff _ _ _ _ _).mp done).1
  iterate 2
    rename_i kind
    simp only [kind]
    refine outcome_of_not_ok classify_itemCode fun out done => rejected ?_
    obtain ⟨c, found, updatable, -⟩ := (updateContract_ok_iff _ _ _ _ _).mp done
    exact ⟨c, found, updatable⟩

/-! ### What accepted requests do -/

def Store.put (store : Store) (id : String) (c : Contract) : Store :=
  { store with contracts := store.contracts.set id c }

variable {id : String}

theorem put_inj {c c' : Contract} : store.put id c = store.put id c' ↔ c = c' := by
  constructor
  · intro same
    have held := congrArg (fun s => s.contracts.get? id) same
    simpa [Store.put] using held
  · rintro rfl
    rfl

/-- What an item does when it is accepted in bulk. -/
inductive BulkDoes (host : Host) (store : Store) (item : Item) (fresh : Fresh) : Outcome → Prop where
  | create {row : Contract} (kind : item.kind = .create ∨ item.kind = .other)
      (made : item.bulkCreate.row? fresh = some row) :
      BulkDoes host store item fresh (201, store.put fresh.id row)
  | update {c : Contract} (kind : item.kind = .update)
      (found : Sqlite.findById store item.target = .ok (some c)) :
      BulkDoes host store item fresh
        (200, store.put item.target (c.updated item.bulkUpdate.updateFields.fields))
  | delete {c : Contract} (kind : item.kind = .delete)
      (found : Sqlite.findById store item.target = .ok (some c)) :
      BulkDoes host store item fresh
        (200, store.put item.target (c.updated item.bulkDelete.updateFields.fields))

/-- What its single request does when it is accepted. -/
inductive SingleDoes (store : Store) (item : Item) (fresh : Fresh) : Outcome → Prop where
  | create {row : Contract} (kind : item.kind = .create)
      (made : item.parsedCreate.row? fresh = some row) :
      SingleDoes store item fresh (201, store.put fresh.id row)
  | update {c : Contract} (kind : item.kind = .update)
      (found : Sqlite.findById store item.target = .ok (some c)) :
      SingleDoes store item fresh
        (200, store.put item.target (c.updated item.parsedPatch.updateFields.fields))
  | delete {c : Contract} (kind : item.kind = .delete)
      (found : Sqlite.findById store item.target = .ok (some c)) :
      SingleDoes store item fresh (200, store.put item.target { c with deletedAt := some fresh.now })

theorem createContract_of_creatable {data : CreateContractDto} {row : Contract}
    (creatable : Creatable host store data fresh row) :
    createContract host store data fresh = .ok (row, store.put fresh.id row) := by
  refine (createContract_ok_iff _ _ _ _ _).mpr ⟨creatable, ?_⟩
  rw [← id_of_row? creatable.made]
  rfl

theorem updateContract_of_updatable {dto : UpdateContractDto} {c : Contract}
    (found : Sqlite.findById store id = .ok (some c)) (updatable : Updatable host store dto c) :
    updateContract host store id dto =
      .ok (c.updated dto.updateFields.fields, store.put id (c.updated dto.updateFields.fields)) :=
  (updateContract_ok_iff _ _ _ _ _).mpr ⟨c, found, updatable, rfl⟩

theorem bulkDoes_of_accepted (accepted : BulkAccepted host store item fresh) :
    BulkDoes host store item fresh (processSingleCreateItem host store item fresh) := by
  unfold BulkAccepted at accepted
  unfold processSingleCreateItem
  cases kind : item.kind with
  | create =>
    simp only [kind] at accepted ⊢
    obtain ⟨row, creatable⟩ := accepted
    rw [outcome_of_ok (createContract_of_creatable creatable)]
    exact .create (.inl kind) creatable.made
  | other =>
    simp only [kind] at accepted ⊢
    obtain ⟨row, creatable⟩ := accepted
    rw [outcome_of_ok (createContract_of_creatable creatable)]
    exact .create (.inr kind) creatable.made
  | update =>
    simp only [kind] at accepted ⊢
    obtain ⟨c, found, updatable⟩ := accepted
    rw [outcome_of_ok (updateContract_of_updatable found updatable)]
    exact .update kind found
  | delete =>
    simp only [kind] at accepted ⊢
    obtain ⟨c, found, updatable⟩ := accepted
    rw [outcome_of_ok (updateContract_of_updatable found updatable)]
    exact .delete kind found

theorem found_of_granted {action : Action}
    (granted : requireOwner caller store action id = some .granted) :
    ∃ c, Sqlite.findById store id = .ok (some c) := by
  unfold requireOwner ownerOf at granted
  cases found : Sqlite.findById store id with
  | error e => rw [found] at granted; cases granted
  | ok found' =>
    cases found' with
    | none => rw [found] at granted; cases granted
    | some c => exact ⟨c, rfl⟩

theorem singleDoes_of_accepted (accepted : SingleAccepted host caller store item fresh) :
    SingleDoes store item fresh (single host caller store item fresh) := by
  unfold SingleAccepted at accepted
  unfold single
  cases kind : item.kind with
  | create =>
    simp only [kind] at accepted ⊢
    obtain ⟨granted, valid, row, creatable⟩ := accepted
    simp only [postContract, granted, valid, if_true]
    rw [outcome_of_ok (createContract_of_creatable creatable)]
    exact .create kind creatable.made
  | update =>
    simp only [kind] at accepted ⊢
    obtain ⟨validId, granted, valid, c, found, updatable⟩ := accepted
    simp only [patchContract, validId, granted, valid, if_true]
    rw [outcome_of_ok (updateContract_of_updatable found updatable)]
    exact .update kind found
  | delete =>
    simp only [kind] at accepted ⊢
    obtain ⟨validId, granted⟩ := accepted
    obtain ⟨c, found⟩ := found_of_granted granted
    simp only [deleteContract, validId, granted, if_true]
    rw [outcome_of_ok (show delete store item.target fresh.now =
      .ok (store.put item.target { c with deletedAt := some fresh.now }) by rw [delete, found]; rfl)]
    exact .delete kind found
  | other => simp only [kind] at accepted

/-- The rows of a creation in bulk and of its single request differ in the title
that is not trimmed and in the freelancer that is filled in. -/
theorem row?_eq_iff {row row' : Contract} (made : item.bulkCreate.row? fresh = some row)
    (made' : item.parsedCreate.row? fresh = some row') :
    row = row' ↔ item.title.map trim = item.title ∧ item.freelancerId ≠ none := by
  have sameStatus : item.bulkCreate.statusText = item.parsedCreate.statusText := rfl
  unfold CreateContractDto.row? at made made'
  rw [sameStatus] at made
  split at made
  · rename_i status title clientId budget known hasTitle hasClient hasBudget
    cases made
    rw [show item.parsedCreate.title = some (trim title) from congrArg (Option.map trim) hasTitle,
      show item.parsedCreate.clientId = some clientId from hasClient,
      show item.parsedCreate.budget = some budget from hasBudget, known] at made'
    cases made'
    rw [show item.title = some title from hasTitle]
    cases named : item.freelancerId with
    | none =>
      simp only [Item.bulkCreate, Item.parsedCreate, named, Option.getD_some, Option.getD_none,
        ne_eq, not_true_eq_false, and_false, iff_false]
      intro same
      have freelancer : defaultFreelancerId = "" := congrArg Contract.freelancerId same
      exact absurd freelancer (by decide)
    | some f =>
      simp only [Item.bulkCreate, Item.parsedCreate, named, Option.getD_some, Contract.mk.injEq,
        Option.map_some, Option.some.injEq, ne_eq, reduceCtorEq, not_false_eq_true, and_true,
        true_and]
      exact eq_comm
  · cases made

theorem updated_eq_iff (item : Item) (c : Contract) :
    c.updated item.bulkUpdate.updateFields.fields = c.updated item.parsedPatch.updateFields.fields ↔
      (item.title.map trim).getD c.title = item.title.getD c.title ∧
      (item.amount.or item.budget).getD c.amount = c.amount ∧
      item.freelancerId.getD c.freelancerId = c.freelancerId := by
  simp only [Contract.updated, UpdateFields.fields, UpdateContractDto.updateFields, Item.bulkUpdate,
    Item.parsedPatch, Item.patch, Contract.mk.injEq, Option.getD_none, true_and, and_true]
  constructor
  · rintro ⟨title, freelancer, amount⟩
    exact ⟨title.symm, amount.symm, freelancer.symm⟩
  · rintro ⟨title, amount, freelancer⟩
    exact ⟨title.symm, freelancer.symm, amount.symm⟩

/-- Where both accept an item, they do the same to the store exactly when the
fields they write agree. -/
theorem after_eq_iff {bulk single : Outcome} (bulkDoes : BulkDoes host store item fresh bulk)
    (singleDoes : SingleDoes store item fresh single) :
    bulk.2 = single.2 ↔ SameFields store item := by
  unfold SameFields
  cases singleDoes with
  | create kind made' =>
    cases bulkDoes with
    | create _ made =>
      simp only [kind]
      exact put_inj.trans (row?_eq_iff made made')
    | update other _ | delete other _ => rw [kind] at other; cases other
  | update kind found =>
    cases bulkDoes with
    | create other _ => rw [kind] at other; rcases other with other | other <;> cases other
    | update _ found' =>
      cases found.symm.trans found'
      simp only [kind, found, Except.ok.injEq, Option.some.injEq, forall_eq']
      exact put_inj.trans (updated_eq_iff item _)
    | delete other _ => rw [kind] at other; cases other
  | delete kind found =>
    cases bulkDoes with
    | create other _ => rw [kind] at other; rcases other with other | other <;> cases other
    | update other _ => rw [kind] at other; cases other
    | delete _ found' =>
      cases found.symm.trans found'
      simp only [kind, iff_false]
      intro same
      -- The bulk deletion has raised the version, which a deletion leaves alone.
      have versions := congrArg Contract.version (put_inj.mp same)
      simp [Contract.updated] at versions

theorem BulkDoes.performed {out : Outcome} (does : BulkDoes host store item fresh out) :
    classify out.1 = .performed := by
  cases does <;> rfl

theorem SingleDoes.performed {out : Outcome} (does : SingleDoes store item fresh out) :
    classify out.1 = .performed := by
  cases does <;> rfl

/-! ### The main result -/

theorem asSingle_iff (store : Store) (p : Item × Fresh) :
    AsSingle host caller p ⟨(processSingleCreateItem host store p.1 p.2).1, store,
      (processSingleCreateItem host store p.1 p.2).2⟩ ↔ ItemAgrees host caller store p := by
  obtain ⟨item, fresh⟩ := p
  unfold AsSingle ItemAgrees
  by_cases refused : SingleRefused caller store item
  · -- No item of a batch is ever refused.
    simp only [refused, not_true_eq_false, false_and, iff_false, not_and]
    intro same
    rw [single_of_refused fresh refused] at same
    by_cases bulk : BulkAccepted host store item fresh
    · cases (bulkDoes_of_accepted bulk).performed.symm.trans same
    · cases (process_of_rejected bulk).1.symm.trans same
  · simp only [refused, not_false_eq_true, true_and]
    by_cases bulk : BulkAccepted host store item fresh <;>
      by_cases accepted : SingleAccepted host caller store item fresh
    · have does := bulkDoes_of_accepted bulk
      have does' := singleDoes_of_accepted accepted
      simp only [does.performed, does'.performed, true_and, bulk, accepted, iff_self, forall_const]
      exact after_eq_iff does does'
    · simp only [(bulkDoes_of_accepted bulk).performed, (single_of_failed refused accepted).1, bulk,
        accepted, reduceCtorEq, false_and, iff_true]
    · simp only [(process_of_rejected bulk).1, (singleDoes_of_accepted accepted).performed, bulk,
        accepted, reduceCtorEq, false_and, iff_false, not_true_eq_false]
    · simp only [(process_of_rejected bulk).1, (process_of_rejected bulk).2,
        (single_of_failed refused accepted).1, (single_of_failed refused accepted).2, bulk, accepted,
        and_self, iff_self, false_imp_iff]

theorem processAll_iff : ∀ (items : List (Item × Fresh)) (store : Store),
    List.Forall₂ (AsSingle host caller) items (processAll host store items) ↔
      Along (fun store p => (processSingleCreateItem host store p.1 p.2).2) (ItemAgrees host caller)
        store items
  | [], store => by simp [processAll]
  | (item, fresh) :: rest, store => by
      rw [processAll, List.forall₂_cons, along_cons, ← asSingle_iff, processAll_iff rest]

theorem refusal_iff {code : Nat} {items : List (Item × Fresh)} :
    List.Forall₂ (AsSingle host caller) items (items.map fun _ => (⟨code, store, store⟩ : Visit)) ↔
      ∀ p ∈ items, classify code = classify (single host caller store p.1 p.2).1 ∧
        store = (single host caller store p.1 p.2).2 := by
  induction items with
  | nil => simp
  | cons p rest ih => rw [List.map_cons, List.forall₂_cons, ih, List.forall_mem_cons]; rfl

variable (store : Store) (p : Item × Fresh)

theorem refused_iff :
    (OutcomeClass.refused = classify (single host caller store p.1 p.2).1 ∧
      store = (single host caller store p.1 p.2).2) ↔ SingleRefused caller store p.1 := by
  constructor
  · rintro ⟨same, -⟩
    by_contra allowed
    by_cases accepted : SingleAccepted host caller store p.1 p.2
    · cases same.trans (singleDoes_of_accepted accepted).performed
    · cases same.trans (single_of_failed allowed accepted).1
  · intro refused
    rw [single_of_refused p.2 refused]
    exact ⟨rfl, rfl⟩

theorem failed_iff :
    (OutcomeClass.failed = classify (single host caller store p.1 p.2).1 ∧
      store = (single host caller store p.1 p.2).2) ↔
      ¬ SingleRefused caller store p.1 ∧ ¬ SingleAccepted host caller store p.1 p.2 := by
  constructor
  · rintro ⟨same, -⟩
    refine ⟨fun refused => ?_, fun accepted => ?_⟩
    · rw [single_of_refused p.2 refused] at same
      cases same
    · cases same.trans (singleDoes_of_accepted accepted).performed
  · rintro ⟨allowed, rejected⟩
    obtain ⟨failed, unchanged⟩ := single_of_failed allowed rejected
    exact ⟨failed.symm, unchanged.symm⟩

theorem batchRefusal_cases (caller : User) (items : List Item) :
    batchRefusal caller items = some 403 ∨ batchRefusal caller items = some 400 ∨
      batchRefusal caller items = none := by
  unfold batchRefusal
  rcases requirePermission_cases caller .contracts .create with granted | forbidden
  · rw [granted]
    dsimp only
    split
    · exact .inr (.inl rfl)
    · split
      · exact .inr (.inl rfl)
      · exact .inr (.inr rfl)
  · rw [forbidden]
    exact .inl rfl

/-- The bulk route does to each item what the single request of the same caller
would do, exactly when the batch meets the condition. -/
theorem bulk_agrees_iff (host : Host) (caller : User) (store : Store) (items : List (Item × Fresh)) :
    BulkAsSingle host caller store items ↔ BatchAgrees host caller store items := by
  unfold BulkAsSingle BatchAgrees bulk
  rcases batchRefusal_cases caller (items.map Prod.fst) with refusal | refusal | refusal
  · rw [refusal]
    rw [refusal_iff]
    exact forall₂_congr fun p _ => refused_iff store p
  · rw [refusal]
    rw [refusal_iff]
    exact forall₂_congr fun p _ => failed_iff store p
  · rw [refusal]
    exact processAll_iff items store

instance (store : Store) (items : List (Item × Fresh)) : Decidable (BulkAsSingle host caller store items) :=
  inferInstanceAs (Decidable (List.Forall₂ _ _ _))

/-- A host that adds nothing up and takes every format. -/
def lenientHost : Host := ⟨fun total _ => some total, fun _ => true, fun _ => true, true⟩

/-- A batch creates what the single request does not: a contract that names no freelancer, and
one whose title is too short. -/
theorem bulk_creates_what_post_rejects :
    let store := Store.migrated ["u1", defaultFreelancerId] .empty
    let item : Item :=
      { title := some "Website", description := some "A small website", clientId := some "u1",
        budget := some (.ofNat 100) }
    let short := { item with title := some "Site", freelancerId := some defaultFreelancerId }
    ¬ BulkAsSingle lenientHost ⟨"u1", "mail", .client⟩ store [(item, ⟨"c1", "t1"⟩)] ∧
      ¬ BulkAsSingle lenientHost ⟨"u1", "mail", .client⟩ store [(short, ⟨"c1", "t1"⟩)] := by
  decide +kernel

end TalentTrust.Contracts
