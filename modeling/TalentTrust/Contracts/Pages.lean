import TalentTrust.Contracts.Cursor
import TalentTrust.Contracts.Service
import TalentTrust.Utils.SoftDelete

/-!
`findPage` of the contract repositories, and the writes that change what it finds.

`ContractRepository` selects a page in the order of its cursors: by creation time
and id, downwards. `InMemoryContractRepository` lists contracts of one time in
the order of their insertion, but selects what comes after a cursor by id. Each
is a page of `Lib.pageAfter` over its own list (`Sqlite.follow_findPage`,
`InMemoryContractRepository.follow_findPage`).
-/

namespace TalentTrust.Contracts

open TalentTrust.Lib TalentTrust.Retention TalentTrust.SoftDelete

/-! ### Pages -/

/-- `limit` and `cursor` are absent or given. -/
structure CursorPaginationInput where
  limit : Option Decimal := none
  cursor : Option String := none
  includeDeleted : Bool := false
  deriving DecidableEq

structure CursorPage where
  data : List Contract
  nextCursor : Option String
  hasNextPage : Bool
  limit : Nat
  deriving DecidableEq

def Contract.position (c : Contract) : CursorPosition := ⟨c.createdAt, c.id⟩

/-- `parseLimit(input.limit)`. -/
def CursorPaginationInput.pageSize (input : CursorPaginationInput) : Except String Nat :=
  parseLimit (input.limit.map fun d => String.ofList d.chars)

/-- The position of `input.cursor`, if there is one. -/
def CursorPaginationInput.position (platform : Platform) (input : CursorPaginationInput) :
    Except String (Option CursorPosition) :=
  match input.cursor.filter (· ≠ "") with
  | none => .ok none
  | some cursor => (decodeCursor platform cursor).map some

/-- The contract may be shown: it is not deleted, or deleted ones are asked for. -/
def Contract.shown (includeDeleted : Bool) (c : Contract) : Bool := includeDeleted || c.deletedAt.isNone

/-! ### Stored contracts -/

/-- What a repository holds: each contract under its own id, with the id and the
time that it was created with. -/
def Stored (platform : Platform) (rows : OrderedMap String Contract) : Prop :=
  ∀ id c, rows.get? id = some c → c.id = id ∧ c.position.Stamped platform

def values (rows : OrderedMap String Contract) : List Contract := rows.entries.map Prod.snd

section Stored

variable {platform : Platform} {rows : OrderedMap String Contract} {c : Contract}

theorem mem_values : c ∈ values rows ↔ ∃ id, rows.get? id = some c := by
  simp [values, OrderedMap.get?_eq_some_iff]

variable (stored : Stored platform rows)

include stored

theorem Stored.get? (mem : c ∈ values rows) :
    rows.get? c.id = some c ∧ c.position.Stamped platform := by
  obtain ⟨id, held⟩ := mem_values.mp mem
  obtain ⟨rfl, stamped⟩ := stored id c held
  exact ⟨held, stamped⟩

theorem Stored.nodup : ((values rows).map Contract.id).Nodup := by
  have ids : (values rows).map Contract.id = rows.entries.map Prod.fst := by
    rw [values, List.map_map]
    apply List.map_congr_left
    rintro ⟨id, c⟩ mem
    exact (stored id c (OrderedMap.get?_eq_some_iff.mpr mem)).1
  rw [ids]
  exact rows.nodup

theorem Stored.set (stamped : c.position.Stamped platform) : Stored platform (rows.set c.id c) := by
  intro id d held
  rw [OrderedMap.get?_set] at held
  split at held
  · obtain rfl := Option.some.inj held
    exact ⟨(‹id = _›).symm, stamped⟩
  · exact stored id d held

end Stored

/-! ### Restoring -/

inductive RestoreError where
  | notFound (message : String)
  | notDeleted (message : String)
  | retention (error : RetentionError)
  deriving DecidableEq

/-- The checks of `restore`, which both repositories make on what they hold. -/
def restorable (platform : Platform) (id : String) (existing : Option Contract) (now : Date)
    (retentionDays : Int) : Except RestoreError Contract :=
  match existing with
  | none => .error (.notFound ("Contract with id " ++ id ++ " not found"))
  | some c =>
    match c.deletedAt.filter (· ≠ "") with
    | none => .error (.notDeleted ("Contract " ++ id ++ " is not soft-deleted"))
    | some deletedAt =>
      if isPastRetentionWindow (platform.parseDate deletedAt) retentionDays now then
        .error (.retention
          { message := "Contract " ++ id ++ " retention window of " ++ toString retentionDays ++
              " days has expired" })
      else .ok { c with deletedAt := none }

variable {c : Contract}

theorem restorable_ok {platform : Platform} {id : String} {existing : Option Contract} {now : Date}
    {retentionDays : Int} (ok : restorable platform id existing now retentionDays = .ok c) :
    ∃ d, existing = some d ∧ c = { d with deletedAt := none } := by
  unfold restorable at ok
  split at ok
  · cases ok
  · split at ok
    · cases ok
    · split at ok
      · cases ok
      · exact ⟨_, rfl, (Except.ok.inj ok).symm⟩

/-! ### The SQLite repository -/

namespace Sqlite

/-- `ORDER BY created_at DESC, id DESC`. -/
def newestFirst (cs : List Contract) : List Contract :=
  cs.mergeSort fun a b => !a.position.below byteOrder b.position

/-- The paging queries. -/
def selectPage (rows : Rows) (includeDeleted : Bool) (position : Option CursorPosition) (limit : Nat) :
    List Contract :=
  (newestFirst ((values rows).filter fun c =>
    position.all (c.position.below byteOrder) && c.shown includeDeleted)).take limit

/-- `toContract`; without the column a row has no deletion mark. -/
def toContract (store : Store) (c : Contract) : Contract :=
  { c with deletedAt := if store.softDeletes then c.deletedAt else none }

def findPage (platform : Platform) (store : Store) (input : CursorPaginationInput) :
    Except String CursorPage :=
  match input.pageSize with
  | .error message => .error message
  | .ok limit =>
    match input.position platform with
    | .error message => .error message
    | .ok position =>
      if input.includeDeleted || store.softDeletes then
        let found := selectPage store.contracts input.includeDeleted position (limit + 1)
        let hasNextPage := limit < found.length
        let pageRows := if hasNextPage then found.take limit else found
        .ok
          { data := pageRows.map (toContract store)
            nextCursor :=
              if hasNextPage then pageRows.getLast?.map fun c => encodeCursor c.position else none
            hasNextPage
            limit }
      else .error "no such column: deleted_at"

def restore (platform : Platform) (store : Store) (id : String) (now : Date) (retentionDays : Int) :
    Except RestoreError (Contract × Store) :=
  (restorable platform id ((store.contracts.get? id).map (toContract store)) now retentionDays).map fun c =>
    (c, { store with contracts := store.contracts.set id c })

end Sqlite

/-! ### The repository in memory -/

/-- The input of `create`, as it is typed. -/
structure NewContract where
  title : String
  clientId : String
  freelancerId : Option String := none
  amount : Decimal
  status : Option ContractStatus := none
  deriving DecidableEq

structure InMemoryContractRepository (platform : Platform) where
  contracts : OrderedMap String Contract
  insertionSeq : Nat
  insertionOrder : OrderedMap String Nat
  stored : Stored platform contracts

namespace InMemoryContractRepository

variable {platform : Platform}

def empty : InMemoryContractRepository platform where
  contracts := OrderedMap.empty
  insertionSeq := 0
  insertionOrder := OrderedMap.empty
  stored := by
    intro id c held
    cases held

variable (repo : InMemoryContractRepository platform)

def create (data : NewContract) (id : Uuid) (now : Instant) :
    Contract × InMemoryContractRepository platform :=
  let contract : Contract :=
    { id := id.text
      title := data.title
      clientId := data.clientId
      freelancerId := data.freelancerId.getD ""
      amount := data.amount
      status := data.status.getD .draft
      createdAt := platform.toISOString now
      version := 0
      deletedAt := none }
  (contract,
    { contracts := repo.contracts.set contract.id contract
      insertionSeq := repo.insertionSeq + 1
      insertionOrder := repo.insertionOrder.set contract.id repo.insertionSeq
      stored := repo.stored.set ⟨⟨id, rfl⟩, now, rfl⟩ })

def findById (id : String) (includeDeleted : Bool) : Option Contract :=
  (repo.contracts.get? id).filter fun c => includeDeleted || !isSoftDeleted c.deletedAt

/-- The contract under an id is changed, or replaced; its id and time stay. -/
def modify (id : String) (f : Contract → Contract) (keeps : ∀ c, (f c).position = c.position) :
    InMemoryContractRepository platform :=
  { repo with
    contracts := match repo.contracts.get? id with
      | some c => repo.contracts.set id (f c)
      | none => repo.contracts
    stored := by
      split
      · rename_i c held
        obtain ⟨rfl, stamped⟩ := repo.stored id c held
        have sameId : (f c).id = c.id := congrArg CursorPosition.id (keeps c)
        rw [← keeps c] at stamped
        rw [← sameId]
        exact repo.stored.set stamped
      · exact repo.stored }

def updateWithVersion (id : String) (fields : ContractFields) (expectedVersion : Nat) :
    Except UpdateError (Contract × InMemoryContractRepository platform) :=
  match repo.findById id false with
  | none => .error (notFoundError id)
  | some existing =>
    if existing.version ≠ expectedVersion then .error .versionConflict
    else .ok (existing.updated fields, repo.modify id (·.updated fields) fun _ => rfl)

/-- The new deletion mark of a contract, in place. -/
def mark (id : String) (deletedAt : Option String) : InMemoryContractRepository platform :=
  repo.modify id ({ · with deletedAt }) fun _ => rfl

/-- `delete`, which answers with `false` when there is nothing to delete. -/
def delete (id now : String) : Option (InMemoryContractRepository platform) :=
  (repo.findById id false).map fun _ => repo.mark id (some now)

def restore (id : String) (now : Date) (retentionDays : Int) :
    Except RestoreError (Contract × InMemoryContractRepository platform) :=
  (restorable platform id (repo.contracts.get? id) now retentionDays).map fun c =>
    (c, repo.mark id none)

/-- The comparison function that `findAll` sorts with: `a` may stand before `b`. -/
def before (a b : Contract) : Bool :=
  match platform.localeCompare b.createdAt a.createdAt with
  | .lt => true
  | .gt => false
  | .eq => (repo.insertionOrder.get? b.id).getD 0 ≤ (repo.insertionOrder.get? a.id).getD 0

def findAll (includeDeleted : Bool) : List Contract :=
  let all := (values repo.contracts).mergeSort repo.before
  if includeDeleted then all else all.filter fun c => !isSoftDeleted c.deletedAt

def findPage (input : CursorPaginationInput) : Except String CursorPage :=
  match input.pageSize with
  | .error message => .error message
  | .ok limit =>
    match input.position platform with
    | .error message => .error message
    | .ok position =>
      let sorted := (repo.findAll input.includeDeleted).filter fun c =>
        position.all (c.position.below codeUnitOrder)
      let data := sorted.take limit
      let hasNextPage := limit < sorted.length
      .ok
        { data
          nextCursor := if hasNextPage then data.getLast?.map fun c => encodeCursor c.position else none
          hasNextPage
          limit }

end InMemoryContractRepository

/-! ### Pages by cursor -/

section Cursors

variable {platform : Platform}

theorem pageSize_number (limit : PageLimit) (cursor : Option String) (includeDeleted : Bool) :
    CursorPaginationInput.pageSize ⟨some limit.number, cursor, includeDeleted⟩ = .ok limit.size :=
  parseLimit_number limit

theorem position_encoded (limit : Option Decimal) (includeDeleted : Bool) {position : Option CursorPosition}
    (stamped : ∀ p ∈ position, p.Stamped platform) :
    CursorPaginationInput.position platform ⟨limit, position.map encodeCursor, includeDeleted⟩ =
      .ok position := by
  cases position with
  | none => rfl
  | some p =>
    have given : (some (encodeCursor p)).filter (· ≠ "") = some (encodeCursor p) :=
      Option.filter_some_pos (decide_eq_true (encodeCursor_ne_empty p))
    simp only [CursorPaginationInput.position, Option.map_some, given,
      decodeCursor_encodeCursor (stamped p rfl), Except.map]

/-- A client that asks for the page after a cursor. -/
def follow (findPage : CursorPaginationInput → Except String CursorPage) (limit : PageLimit)
    (cursor : Option String) : Option (List Contract × Option String) :=
  match findPage { limit := some limit.number, cursor } with
  | .ok page => some (page.data, page.nextCursor)
  | .error _ => none

end Cursors

namespace Sqlite

variable {platform : Platform} {rows : Rows}

theorem descending_newestFirst {cs : List Contract} (distinct : (cs.map Contract.id).Nodup) :
    Descending Contract.position (CursorPosition.below byteOrder) (newestFirst cs) := by
  exact descending_downwards (strictOrder_below byteOrder) below_trichotomous
    (nodup_map_pos CursorPosition.id distinct)

/-- The contracts that are not deleted, in the order of the pages. -/
def listed (rows : Rows) : List Contract := newestFirst ((values rows).filter (Contract.shown false))

theorem mem_listed : c ∈ listed rows ↔ c ∈ values rows ∧ c.deletedAt = none := by
  have perm : (listed rows).Perm ((values rows).filter (Contract.shown false)) :=
    List.mergeSort_perm _ _
  rw [perm.mem_iff, List.mem_filter, Contract.shown, Bool.false_or, Option.isNone_iff_eq_none]

variable (stored : Stored platform rows)

include stored

theorem nodup_ids (keep : Contract → Bool) : (((values rows).filter keep).map Contract.id).Nodup :=
  stored.nodup.sublist (List.filter_sublist.map Contract.id)

theorem descending_listed :
    Descending Contract.position (CursorPosition.below byteOrder) (listed rows) :=
  descending_newestFirst (nodup_ids stored _)

theorem selectPage_eq (position : Option CursorPosition) (limit : Nat) :
    selectPage rows false position limit =
      (rowsAfter Contract.position (CursorPosition.below byteOrder) (listed rows) position).take limit := by
  have distinct : (((values rows).filter (Contract.shown false)).map Contract.position).Nodup :=
    nodup_map_pos CursorPosition.id (nodup_ids stored _)
  have split := downwards_filter (strictOrder_below byteOrder) below_trichotomous distinct position
  rw [List.filter_filter] at split
  exact congrArg (List.take limit) split

omit stored

theorem toContract_eq {store : Store} (has : store.softDeletes = true) : toContract store = id := by
  funext c
  simp [toContract, has]

theorem follow_findPage {store : Store} (has : store.softDeletes = true)
    (stored : Stored platform store.contracts) (limit : PageLimit) {position : Option CursorPosition}
    (stamped : ∀ p ∈ position, p.Stamped platform) :
    let page := pageAfter Contract.position (CursorPosition.below byteOrder) limit.size
      (listed store.contracts) position
    follow (findPage platform store) limit (position.map encodeCursor) =
      some (page.1, page.2.map encodeCursor) := by
  intro page
  obtain ⟨taken, more⟩ := page_of_next limit.size
    (rowsAfter Contract.position (CursorPosition.below byteOrder) (listed store.contracts) position)
  simp only [follow, findPage, pageSize_number, position_encoded _ _ stamped, selectPage_eq stored, has,
    Bool.false_or, if_true, toContract_eq has, List.map_id]
  rw [taken, if_congr more rfl rfl, nextCursor_eq encodeCursor]
  rfl

end Sqlite

namespace InMemoryContractRepository

variable {platform : Platform}

theorem mem_findAll {repo : InMemoryContractRepository platform}
    (mem : c ∈ repo.findAll false) : c ∈ values repo.contracts := by
  exact (List.mergeSort_perm _ _).mem_iff.mp (List.mem_filter.mp mem).1

variable (repo : InMemoryContractRepository platform)

theorem nodup_findAll : ((repo.findAll false).map Contract.id).Nodup := by
  have all : (((values repo.contracts).mergeSort repo.before).map Contract.id).Nodup :=
    ((List.mergeSort_perm _ _).map Contract.id).nodup_iff.mpr repo.stored.nodup
  exact all.sublist (List.filter_sublist.map Contract.id)

theorem findById_modify {id other : String} (ne : other ≠ id) (f : Contract → Contract)
    (keeps : ∀ c, (f c).position = c.position) (includeDeleted : Bool) :
    (repo.modify id f keeps).findById other includeDeleted = repo.findById other includeDeleted := by
  unfold findById modify
  dsimp only
  split
  · rw [OrderedMap.get?_set_of_ne _ _ ne]
  · rfl

theorem follow_findPage (limit : PageLimit)
    {position : Option CursorPosition} (stamped : ∀ p ∈ position, p.Stamped platform) :
    let page := pageAfter Contract.position (CursorPosition.below codeUnitOrder) limit.size
      (repo.findAll false) position
    follow repo.findPage limit (position.map encodeCursor) = some (page.1, page.2.map encodeCursor) := by
  intro page
  simp only [follow, findPage, pageSize_number, position_encoded _ _ stamped]
  rw [nextCursor_eq encodeCursor]
  rfl

end InMemoryContractRepository

end TalentTrust.Contracts
