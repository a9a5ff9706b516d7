import TalentTrust.Db.Schema
import TalentTrust.Lib.Calls
import TalentTrust.Lib.Decimal

/-!
Optimistic concurrency in the contract repositories.

`updateWithVersion` reads the contract, gives way, and then writes it with a
version that is higher by one. `ContractRepository` repeats the version check
inside its `UPDATE`; `InMemoryContractRepository` relies on the object it has
read. `Serialized` says what a run of concurrent updates is to look like: the
successful calls stand in one order, each expecting the version that the one
before it has produced, and the stored contract is the result of applying them
in that order. What a turn of a call may do to a serialized history is said once
for both repositories.

The statements of `ContractRepository` read a column `deleted_at`. No migration
adds it (`migrated_softDeletes`), and on a table without it they throw.
-/

namespace TalentTrust.Contracts

open TalentTrust.Lib

/-! ### Contracts and updates -/

inductive ContractStatus where
  | draft
  | active
  | completed
  | disputed
  | cancelled
  deriving DecidableEq, Repr

structure Contract where
  id : String
  title : String
  clientId : String
  freelancerId : String
  amount : Decimal
  status : ContractStatus
  createdAt : String
  version : Nat
  deletedAt : Option String
  deriving DecidableEq

/-- The fields the service passes to `updateWithVersion`. -/
structure ContractFields where
  title : Option String
  status : Option ContractStatus
  amount : Option Decimal
  freelancerId : Option String
  deriving DecidableEq

/-- The arguments of a call `updateWithVersion(id, fields, expectedVersion)`. -/
structure Update where
  id : String
  fields : ContractFields
  expectedVersion : Nat
  deriving DecidableEq

inductive SqliteError where
  /-- `no such column: deleted_at`, when the statement is prepared. -/
  | noSuchColumn
  | constraint
  deriving DecidableEq, Repr

inductive UpdateError where
  | notFound (message : String)
  | versionConflict
  | sqlite (error : SqliteError)
  deriving DecidableEq

def isSoftDeleted : Option String → Bool
  | none => false
  | some deletedAt => deletedAt ≠ ""

/-- The contract with the given fields and the next version. -/
def Contract.updated (c : Contract) (fields : ContractFields) : Contract :=
  { c with
    title := fields.title.getD c.title
    status := fields.status.getD c.status
    amount := fields.amount.getD c.amount
    freelancerId := fields.freelancerId.getD c.freelancerId
    version := c.version + 1 }

/-- A contract apart from its deletion mark. -/
def Contract.content (c : Contract) : Contract := { c with deletedAt := none }

variable (c : Contract) (fields : ContractFields)

@[simp] theorem updated_version : (c.updated fields).version = c.version + 1 := rfl

@[simp] theorem content_version : c.content.version = c.version := rfl

theorem content_updated : (c.updated fields).content = c.content.updated fields := rfl

def notFoundError (id : String) : UpdateError :=
  .notFound ("Contract with id " ++ id ++ " not found")

/-! ### Calls -/

inductive Phase where
  /-- It awaits its first `findById`. -/
  | awaiting
  /-- It has written, and awaits the `findById` that has read `row` back. -/
  | rereading (row : Contract)
  | returned (result : Except UpdateError Contract)
  deriving DecidableEq

/-- A call with its local `existing`; `ρ` is what a repository reads. -/
structure Call (ρ : Type) where
  update : Update
  existing : Option ρ
  phase : Phase
  deriving DecidableEq

variable {ρ R : Type}

def Call.succeeded (c : Call ρ) : Bool :=
  match c.phase with
  | .rereading _ | .returned (.ok _) => true
  | .awaiting | .returned (.error _) => false

/-- What a failed call may have failed for: it has found no contract, or it has found one
and then not that version, or it brings fields that the repository does not take. -/
def Call.Refused (takes : ContractFields → Bool) (call : Call ρ) : UpdateError → Prop
  | .notFound message => call.existing = none ∧ .notFound message = notFoundError call.update.id
  | .versionConflict => call.existing ≠ none
  | .sqlite .constraint => call.existing ≠ none ∧ takes call.update.fields = false
  | .sqlite .noSuchColumn => False

/-! ### Serialized histories -/

def updatesOf (log : List Update) (id : String) : List Update := log.filter fun u => u.id = id

/-- `log` lists the successful calls in an order in which each expects the
version left by the one before, and the rows are what this order produces. A
call that failed had a reason to. -/
structure Serialized (takes : ContractFields → Bool) (initial row : String → Option Contract) (calls : List (Call ρ))
    (log : List Update) : Prop where
  logged : ((calls.filter Call.succeeded).map Call.update).Perm log
  consecutive : ∀ id c, initial id = some c → (updatesOf log id).map Update.expectedVersion =
    List.range' c.version (updatesOf log id).length
  content : ∀ id c, initial id = some c → (row id).map Contract.content =
    some ((updatesOf log id).foldl (fun c u => c.updated u.fields) c).content
  refused : ∀ call ∈ calls, ∀ e, call.phase = .returned (.error e) → call.Refused takes e

variable {takes : ContractFields → Bool}

theorem foldl_updated_version (us : List Update) : ∀ c : Contract,
    (us.foldl (fun c u => c.updated u.fields) c).version = c.version + us.length := by
  induction us with
  | nil => exact fun _ => rfl
  | cons u us ih =>
    intro c
    rw [List.foldl_cons, ih, List.length_cons, updated_version]
    omega

section Serialized

variable {initial row : String → Option Contract} {calls : List (Call ρ)} {log : List Update}
  (h : Serialized takes initial row calls log)

include h

theorem Serialized.row_version {id : String} {c : Contract} (there : initial id = some c) :
    ∃ c', row id = some c' ∧ c'.version = c.version + (updatesOf log id).length := by
  have content := h.content id c there
  cases stored : row id with
  | none => rw [stored] at content; cases content
  | some c' =>
    rw [stored, Option.map_some, Option.some.injEq] at content
    refine ⟨c', rfl, ?_⟩
    rw [← foldl_updated_version, ← content_version, content, content_version]

theorem Serialized.append_call {call : Call ρ}
    (fresh : call.phase = .awaiting) : Serialized takes initial row (calls ++ [call]) log where
  logged := by
    have : call.succeeded = false := by simp [Call.succeeded, fresh]
    rw [List.filter_append, List.filter_cons_of_neg (by simp [this]), List.filter_nil,
      List.append_nil]
    exact h.logged
  consecutive := h.consecutive
  content := h.content
  refused := forall_mem_concat h.refused fun e failed => by
    rw [fresh] at failed
    cases failed

theorem Serialized.of_content {row' : String → Option Contract}
    (same : ∀ id, (row' id).map Contract.content = (row id).map Contract.content) :
    Serialized takes initial row' calls log :=
  ⟨h.logged, h.consecutive, fun id c there => (same id).trans (h.content id c there), h.refused⟩

end Serialized

/-! ### What a turn may do -/

section Turns

variable (takes : ContractFields → Bool) (row : R → String → Option Contract) (r : R) (c : Call ρ)

/-- A turn that writes nothing: the rows stay, and the call succeeds only if it
had, or fails for a reason. -/
structure Quiet (r' : R) (c' : Call ρ) : Prop where
  rows : row r' = row r
  update : c'.update = c.update
  succeeded : c'.succeeded = c.succeeded
  refused : ∀ e, c'.phase = .returned (.error e) →
    c.phase = .returned (.error e) ∧ c'.existing = c.existing ∨ c'.Refused takes e

theorem Quiet.refl : Quiet takes row r c r c :=
  ⟨rfl, rfl, rfl, fun _ failed => .inl ⟨failed, rfl⟩⟩

variable {takes c} in
theorem Quiet.refuse {e : UpdateError} (awaiting : c.phase = .awaiting) (refused : c.Refused takes e) :
    Quiet takes row r c r { c with phase := .returned (.error e) } := by
  refine ⟨rfl, rfl, by simp [Call.succeeded, awaiting], fun e' failed => .inr ?_⟩
  cases failed
  cases e <;> exact refused

/-- A turn that writes the successor of `base` into its contract. -/
structure Writes (r' : R) (c' : Call ρ) (base : Contract) : Prop where
  pending : c.succeeded = false
  succeeded : c'.succeeded = true
  update : c'.update = c.update
  expected : base.version = c.update.expectedVersion
  own : row r' c.update.id = some (base.updated c.update.fields)
  others : ∀ id, id ≠ c.update.id → row r' id = row r id

variable {turn : R → Call ρ → R × Call ρ} {takes row c}
  {initial : String → Option Contract} {s : R × List (Call ρ)} {i : Nat}

theorem perm_filter_set {calls : List (Call ρ)} {c c' : Call ρ}
    (found : calls[i]? = some c) (update : c'.update = c.update)
    (pending : c.succeeded = false) (succeeded : c'.succeeded = true) :
    (((calls.set i c').filter Call.succeeded).map Call.update).Perm
      ((calls.filter Call.succeeded).map Call.update ++ [c.update]) := by
  obtain ⟨earlier, later, split, written⟩ := exists_split_of_getElem? found
  rw [written, split, List.filter_append, List.filter_append, List.filter_cons_of_pos succeeded,
    List.filter_cons_of_neg (by simp [pending]), List.map_append, List.map_append, List.map_cons,
    update, List.append_assoc]
  exact List.Perm.append_left _ (List.perm_append_singleton _ _).symm

variable {log : List Update} (h : Serialized takes initial (row s.1) s.2 log) (found : s.2[i]? = some c)

include h found

theorem Serialized.quiet (quiet : Quiet takes row s.1 c (turn s.1 c).1 (turn s.1 c).2) :
    Serialized takes initial (row (resumeAt turn i s).1) (resumeAt turn i s).2 log := by
  obtain ⟨earlier, later, split, written⟩ := exists_split_of_getElem? found
  rw [resumeAt_of_some found]
  refine ⟨?_, h.consecutive, ?_, ?_⟩
  · have logged := h.logged
    rw [split] at logged
    rw [written, List.filter_append, List.filter_cons, quiet.succeeded]
    by_cases done : c.succeeded = true
    · simpa [done, quiet.update] using logged
    · simpa [done] using logged
  · rw [quiet.rows]
    exact h.content
  · refine forall_mem_set h.refused (fun e failed => ?_) i
    rcases quiet.refused e failed with ⟨before, same⟩ | now
    · have was := h.refused c (List.mem_of_getElem? found) e before
      cases e <;> simpa only [Call.Refused, same, quiet.update] using was
    · exact now

variable {base : Contract}

theorem Serialized.write (writes : Writes row s.1 c (turn s.1 c).1 (turn s.1 c).2 base)
    (current : (row s.1 c.update.id).map Contract.content = some base.content) :
    Serialized takes initial (row (resumeAt turn i s).1) (resumeAt turn i s).2 (log ++ [c.update]) := by
  have own : updatesOf (log ++ [c.update]) c.update.id = updatesOf log c.update.id ++ [c.update] := by
    simp [updatesOf]
  have others : ∀ {id}, id ≠ c.update.id → updatesOf (log ++ [c.update]) id = updatesOf log id := by
    intro id ne
    simp [updatesOf, Ne.symm ne]
  rw [resumeAt_of_some found]
  refine ⟨?_, ?_, ?_, ?_⟩
  · exact (perm_filter_set found writes.update writes.pending writes.succeeded).trans
      (h.logged.append_right _)
  · intro id c₀ there
    by_cases same : id = c.update.id
    · subst same
      obtain ⟨c', stored, version⟩ := h.row_version there
      rw [stored, Option.map_some, Option.some.injEq] at current
      have : base.version = c'.version := (congrArg Contract.version current).symm
      rw [own, List.map_append, h.consecutive _ c₀ there, List.map_singleton, ← writes.expected, this,
        version, List.length_append, List.length_singleton, List.range'_concat, Nat.one_mul]
    · rw [others same]
      exact h.consecutive id c₀ there
  · intro id c₀ there
    by_cases same : id = c.update.id
    · subst same
      have before := h.content _ c₀ there
      rw [current, Option.some.injEq] at before
      rw [writes.own, own, List.foldl_append, List.foldl_cons, List.foldl_nil, Option.map_some,
        content_updated, content_updated, before]
    · rw [others same, writes.others id same]
      exact h.content id c₀ there
  · refine forall_mem_set h.refused (fun e failed => ?_) i
    have := writes.succeeded
    rw [Call.succeeded, failed] at this
    cases this

omit h found

end Turns

/-! ### The SQLite repository -/

/-- The `contracts` table, by primary key. -/
abbrev Sqlite.Rows := OrderedMap String Contract

/-- The `users` that contracts refer to, the `contracts` table, and whether that has the
column `deleted_at`. -/
structure Store where
  users : List String
  contracts : Sqlite.Rows
  softDeletes : Bool
  deriving DecidableEq

/-- The tables that the migrations make. -/
def Store.migrated (users : List String) (contracts : Sqlite.Rows) : Store where
  users
  contracts
  softDeletes := Db.hasColumn (Db.catalogAt Db.getLatestSchemaVersion) "contracts" "deleted_at"

theorem migrated_softDeletes (users : List String) (contracts : Sqlite.Rows) :
    (Store.migrated users contracts).softDeletes = false := by
  dsimp only [Store.migrated]
  decide +kernel

def zero : Decimal := Decimal.ofNat 0

/-- The constraints on the columns of an update: a non-negative amount and a known user. -/
def admits (users : List String) (fields : ContractFields) : Bool :=
  (fields.amount.all fun d => !d.less zero) && fields.freelancerId.all fun u => u ∈ users

namespace Sqlite

structure State where
  store : Store
  calls : List (Call Contract)
  deriving DecidableEq

inductive Event where
  | updateWithVersion (update : Update)
  | resume (index : Nat)
  | delete (id now : String)
  /-- The `UPDATE` of a `restore`. Its checks were made on an earlier read, so it may
  come at any time. -/
  | restore (id : String)
  deriving DecidableEq

variable (store : Store)

/-- `SELECT * FROM contracts WHERE id = ? AND deleted_at IS NULL`. -/
def findById (id : String) : Except SqliteError (Option Contract) :=
  if store.softDeletes then .ok ((store.contracts.get? id).filter fun c => c.deletedAt.isNone)
  else .error .noSuchColumn

/-- The row that `UPDATE … WHERE id = ? AND version = ? AND deleted_at IS NULL` makes. -/
def updateRow (update : Update) : Except UpdateError Contract :=
  match findById store update.id with
  | .error e => .error (.sqlite e)
  | .ok found =>
    match found.filter fun c => c.version = update.expectedVersion with
    | none => .error .versionConflict
    | some c =>
      if admits store.users update.fields then .ok (c.updated update.fields)
      else .error (.sqlite .constraint)

/-- `updateWithVersion` up to its first `await`, which throws what `findById` has thrown. -/
def begin (update : Update) : Call Contract :=
  match findById store update.id with
  | .error e => ⟨update, none, .returned (.error (.sqlite e))⟩
  | .ok existing => ⟨update, existing, .awaiting⟩

/-- `updateWithVersion` from one `await` to the next. -/
def proceed (call : Call Contract) : Store × Call Contract :=
  match call.phase with
  | .awaiting =>
    match call.existing with
    | none => (store, { call with phase := .returned (.error (notFoundError call.update.id)) })
    | some _ =>
      match updateRow store call.update with
      | .error e => (store, { call with phase := .returned (.error e) })
      | .ok row =>
        ({ store with contracts := store.contracts.set call.update.id row },
          { call with phase := .rereading row })
  | .rereading row => (store, { call with phase := .returned (.ok row) })
  | .returned _ => (store, call)

def mark (id : String) (deletedAt : Option String) : Store :=
  match store.contracts.get? id with
  | some c => { store with contracts := store.contracts.set id { c with deletedAt := deletedAt } }
  | none => store

def step (s : State) : Event → State
  | .updateWithVersion update => { s with calls := s.calls ++ [begin s.store update] }
  | .resume i =>
    let next := resumeAt proceed i (s.store, s.calls)
    ⟨next.1, next.2⟩
  | .delete id now =>
    match findById s.store id with
    | .ok (some _) => { s with store := mark s.store id (some now) }
    | .ok none | .error _ => s
  | .restore id => if s.store.softDeletes then { s with store := mark s.store id none } else s

def start : State := ⟨store, []⟩

def row (store : Store) : String → Option Contract := store.contracts.get?

variable {store : Store} {id : String} {c : Contract}

theorem findById_eq_some_iff : findById store id = .ok (some c) ↔
    store.softDeletes = true ∧ store.contracts.get? id = some c ∧ c.deletedAt = none := by
  unfold findById
  split <;> simp_all [Option.filter_eq_some_iff]

theorem updateRow_ok {update : Update} (wrote : updateRow store update = .ok c) :
    ∃ base, row store update.id = some base ∧ base.version = update.expectedVersion ∧
      c = base.updated update.fields := by
  unfold updateRow at wrote
  split at wrote
  · cases wrote
  · rename_i found read
    split at wrote
    · cases wrote
    · rename_i base matched
      obtain ⟨rfl, agrees⟩ := Option.filter_eq_some_iff.mp matched
      split at wrote
      · cases wrote
        exact ⟨base, (findById_eq_some_iff.mp read).2.1, of_decide_eq_true agrees, rfl⟩
      · cases wrote

theorem updateRow_refused {call : Call Contract} {e : UpdateError}
    (has : store.softDeletes = true) (found : call.existing ≠ none)
    (refused : updateRow store call.update = .error e) : call.Refused (admits store.users) e := by
  unfold updateRow findById at refused
  rw [if_pos has] at refused
  dsimp only at refused
  split at refused
  · cases refused
    exact found
  · split at refused
    · cases refused
    · rename_i breaks
      cases refused
      exact ⟨found, Bool.eq_false_iff.mpr breaks⟩

variable (store)

theorem content_mark (id : String) (deletedAt : Option String) (id' : String) :
    (row (mark store id deletedAt) id').map Contract.content = (row store id').map Contract.content := by
  unfold mark row
  cases found : store.contracts.get? id with
  | none => rfl
  | some c =>
    dsimp only
    rw [OrderedMap.get?_set]
    by_cases same : id' = id
    · subst same
      rw [if_pos rfl, found]
      rfl
    · rw [if_neg same]

/-- A turn writes nothing, or writes the successor of the stored row. -/
theorem proceed_cases (call : Call Contract) :
    (proceed store call).1 = store ∧ (store.softDeletes = true →
      Quiet (admits store.users) row store call (proceed store call).1 (proceed store call).2) ∨
    ∃ base, row store call.update.id = some base ∧
      (proceed store call).1 = { store with
        contracts := store.contracts.set call.update.id (base.updated call.update.fields) } ∧
      Writes row store call (proceed store call).1 (proceed store call).2 base := by
  obtain ⟨update, existing, phase⟩ := call
  cases phase with
  | awaiting =>
    cases existing with
    | none => exact .inl ⟨rfl, fun _ => .refuse row store rfl ⟨rfl, rfl⟩⟩
    | some seen =>
      cases answer : updateRow store update with
      | error e =>
        have refused : proceed store ⟨update, some seen, .awaiting⟩ =
            (store, ⟨update, some seen, .returned (.error e)⟩) := by
          simp [proceed, answer]
        rw [refused]
        refine .inl ⟨rfl, fun has => .refuse row store rfl ?_⟩
        exact updateRow_refused has (Option.some_ne_none seen) answer
      | ok written =>
        obtain ⟨base, stored, agrees, rfl⟩ := updateRow_ok answer
        have wrote : proceed store ⟨update, some seen, .awaiting⟩ =
            ({ store with contracts := store.contracts.set update.id (base.updated update.fields) },
              ⟨update, some seen, .rereading (base.updated update.fields)⟩) := by
          simp [proceed, answer]
        rw [wrote]
        exact .inr ⟨base, stored, rfl, rfl, rfl, rfl, agrees, OrderedMap.get?_set_self _ _ _,
          fun id other => OrderedMap.get?_set_of_ne _ _ other⟩
  | rereading row =>
    refine .inl ⟨rfl, fun _ => ⟨rfl, rfl, rfl, fun e failed => ?_⟩⟩
    cases failed
  | returned result =>
    exact .inl ⟨rfl, fun _ => .refl _ _ store _⟩

/-- The history is serialized, on a table that has its column. -/
structure Invariant (initial : Store) (s : State) : Prop where
  users : s.store.users = initial.users
  column : s.store.softDeletes = true
  serialized : ∃ log, Serialized (admits initial.users) (row initial) (row s.store) s.calls log

variable {initial : Store} {s : State}

theorem Invariant.mark (h : Invariant initial s) (id : String) (deletedAt : Option String) :
    Invariant initial { s with store := mark s.store id deletedAt } := by
  obtain ⟨log, serialized⟩ := h.serialized
  have same : (Sqlite.mark s.store id deletedAt).users = s.store.users ∧
      (Sqlite.mark s.store id deletedAt).softDeletes = s.store.softDeletes := by
    unfold Sqlite.mark
    split <;> exact ⟨rfl, rfl⟩
  exact ⟨same.1.trans h.users, same.2.trans h.column, log,
    serialized.of_content (content_mark s.store id deletedAt)⟩

theorem Invariant.step (s : State) (e : Event) (h : Invariant initial s) :
    Invariant initial (step s e) := by
  obtain ⟨log, serialized⟩ := h.serialized
  cases e with
  | updateWithVersion update =>
    refine ⟨h.users, h.column, log, serialized.append_call ?_⟩
    rw [begin, findById, if_pos h.column]
  | resume i =>
    have serialized' : Serialized (admits initial.users) (row initial) (row (s.store, s.calls).1)
      (s.store, s.calls).2 log := serialized
    cases found : s.calls[i]? with
    | none =>
      have same : Sqlite.step s (.resume i) = s := by
        simp only [Sqlite.step]
        rw [resumeAt_of_none found]
      rwa [same]
    | some call =>
      have store : (Sqlite.step s (.resume i)).store = (proceed s.store call).1 := by
        simp only [Sqlite.step]
        rw [resumeAt_of_some found]
      rcases proceed_cases s.store call with ⟨same, quiet⟩ | ⟨base, stored, wrote, writes⟩
      · refine ⟨by rw [store, same, h.users], by rw [store, same, h.column], log, ?_⟩
        exact serialized'.quiet found (h.users ▸ quiet h.column)
      · refine ⟨by rw [store, wrote, h.users], by rw [store, wrote, h.column], log ++ [call.update], ?_⟩
        exact serialized'.write found writes (by rw [stored]; rfl)
  | delete id now =>
    unfold Sqlite.step
    dsimp only
    split
    · exact h.mark id (some now)
    · exact h
    · exact h
  | restore id =>
    unfold Sqlite.step
    dsimp only
    split
    · exact h.mark id none
    · exact h

theorem invariant_start (has : store.softDeletes = true) : Invariant store (start store) :=
  ⟨rfl, has, [], List.Perm.refl _, fun _ _ _ => rfl, fun _ _ there => congrArg _ there,
    by simp [start]⟩

end Sqlite

/-! ### The in-memory repository -/

namespace Memory

/-- The objects made for one contract: the one the map holds, and before it
those it has replaced, oldest first. An object is known by its position. -/
structure Cell where
  replaced : List Contract
  current : Contract
  deriving DecidableEq

/-- `InMemoryContractRepository.contracts`, with the objects that calls may still refer to. -/
abbrev Cells := OrderedMap String Cell

structure State where
  cells : Cells
  calls : List (Call Nat)
  deriving DecidableEq

inductive Event where
  | updateWithVersion (update : Update)
  | resume (index : Nat)
  | delete (id now : String)
  /-- `expired` is the answer of `isPastRetentionWindow`. -/
  | restore (id : String) (expired : Bool)
  deriving DecidableEq

/-- The map takes any fields. -/
def unchecked (_ : ContractFields) : Bool := true

/-- What object a reference stands for. -/
def Cell.deref (cell : Cell) (object : Nat) : Option Contract :=
  (cell.replaced ++ [cell.current])[object]?

variable (cells : Cells)

/-- `findById` returns the map's object itself. -/
def findById (id : String) : Option Nat :=
  match cells.get? id with
  | some cell => if isSoftDeleted cell.current.deletedAt then none else some cell.replaced.length
  | none => none

/-- `updateWithVersion` up to its `await`. -/
def begin (update : Update) : Call Nat :=
  ⟨update, findById cells update.id, .awaiting⟩

/-- `updateWithVersion` after its `await`. -/
def proceed (call : Call Nat) : Cells × Call Nat :=
  match call.phase, call.existing, cells.get? call.update.id with
  | .awaiting, none, _ =>
    (cells, { call with phase := .returned (.error (notFoundError call.update.id)) })
  | .awaiting, some object, some cell =>
    match cell.deref object with
    | some existing =>
      if existing.version ≠ call.update.expectedVersion then
        (cells, { call with phase := .returned (.error .versionConflict) })
      else
        (cells.set call.update.id
            ⟨cell.replaced ++ [cell.current], existing.updated call.update.fields⟩,
          { call with phase := .returned (.ok (existing.updated call.update.fields)) })
    | none => (cells, call)
  | _, _, _ => (cells, call)

/-- Set the deletion mark of the map's object, in place. -/
def mark (id : String) (deletedAt : Option String) : Cells :=
  match cells.get? id with
  | some cell => cells.set id { cell with current := { cell.current with deletedAt := deletedAt } }
  | none => cells

def deleted (id : String) : Bool :=
  ((cells.get? id).map fun cell => isSoftDeleted cell.current.deletedAt).getD false

def step (s : State) : Event → State
  | .updateWithVersion update => { s with calls := s.calls ++ [begin s.cells update] }
  | .resume i =>
    let next := resumeAt proceed i (s.cells, s.calls)
    ⟨next.1, next.2⟩
  | .delete id now =>
    if deleted s.cells id then s else { s with cells := mark s.cells id (some now) }
  | .restore id expired =>
    if deleted s.cells id && !expired then { s with cells := mark s.cells id none } else s

def start (rows : OrderedMap String Contract) : State := ⟨rows.mapValues fun c => ⟨[], c⟩, []⟩

def row (id : String) : Option Contract := (cells.get? id).map Cell.current

/-- A call whose object passes the version check does not go on after the map's
object has been replaced. -/
def NotStale (s : State) : Event → Prop
  | .resume i => ∀ call, s.calls[i]? = some call → call.phase = .awaiting →
      ∀ object, call.existing = some object → ∀ cell, s.cells.get? call.update.id = some cell →
        ∀ existing, cell.deref object = some existing →
          existing.version = call.update.expectedVersion → object = cell.replaced.length
  | _ => True

variable {cells : Cells}

theorem get?_mark {id id' : String} {deletedAt : Option String} :
    (mark cells id deletedAt).get? id' =
      if id' = id then (cells.get? id').map fun cell =>
        { cell with current := { cell.current with deletedAt := deletedAt } }
      else cells.get? id' := by
  unfold mark
  cases found : cells.get? id with
  | none => by_cases same : id' = id <;> simp [same, found]
  | some cell =>
    rw [OrderedMap.get?_set]
    by_cases same : id' = id
    · subst same
      rw [if_pos rfl, if_pos rfl, found]
      rfl
    · rw [if_neg same, if_neg same]

theorem content_mark (cells : Cells) (id : String) (deletedAt : Option String) (id' : String) :
    (row (mark cells id deletedAt) id').map Contract.content =
      (row cells id').map Contract.content := by
  unfold row
  rw [get?_mark]
  by_cases same : id' = id
  · rw [if_pos same]
    cases cells.get? id' <;> rfl
  · rw [if_neg same]

/-- A turn writes nothing, or replaces the map's object by the successor of the
object the call has read. -/
theorem proceed_cases (cells : Cells) (call : Call Nat) :
    (Quiet unchecked row cells call (proceed cells call).1 (proceed cells call).2 ∧
      (proceed cells call).1 = cells) ∨
    ∃ cell object base, call.phase = .awaiting ∧ call.existing = some object ∧
      cells.get? call.update.id = some cell ∧ cell.deref object = some base ∧
      (proceed cells call).1 = cells.set call.update.id
        ⟨cell.replaced ++ [cell.current], base.updated call.update.fields⟩ ∧
      Writes row cells call (proceed cells call).1 (proceed cells call).2 base := by
  obtain ⟨update, existing, phase⟩ := call
  cases phase with
  | awaiting =>
    cases existing with
    | none => exact .inl ⟨.refuse row cells rfl ⟨rfl, rfl⟩, rfl⟩
    | some object =>
      cases found : cells.get? update.id with
      | none =>
        have same : proceed cells ⟨update, some object, .awaiting⟩ =
            (cells, ⟨update, some object, .awaiting⟩) := by simp [proceed, found]
        rw [same]
        exact .inl ⟨.refl _ _ cells _, rfl⟩
      | some cell =>
        cases read : cell.deref object with
        | none =>
          have same : proceed cells ⟨update, some object, .awaiting⟩ =
              (cells, ⟨update, some object, .awaiting⟩) := by
            simp [proceed, found, read]
          rw [same]
          exact .inl ⟨.refl _ _ cells _, rfl⟩
        | some base =>
          by_cases agrees : base.version = update.expectedVersion
          · have wrote : proceed cells ⟨update, some object, .awaiting⟩ =
                (cells.set update.id
                    ⟨cell.replaced ++ [cell.current], base.updated update.fields⟩,
                  ⟨update, some object, .returned (.ok (base.updated update.fields))⟩) := by
              simp only [proceed, found, read]
              rw [if_neg (not_not.mpr agrees)]
            rw [wrote]
            refine .inr ⟨cell, object, base, rfl, rfl, rfl, read, rfl, rfl, rfl, rfl,
              agrees, ?_, fun id other => ?_⟩
            · simp only [row, OrderedMap.get?_set_self]
              rfl
            · simp [row, OrderedMap.get?_set_of_ne _ _ other]
          · have refused : proceed cells ⟨update, some object, .awaiting⟩ =
                (cells, ⟨update, some object, .returned (.error .versionConflict)⟩) := by
              simp only [proceed, found, read]
              rw [if_pos agrees]
            rw [refused]
            exact .inl ⟨.refuse row cells rfl (Option.some_ne_none object), rfl⟩
  | rereading contract =>
    exact .inl ⟨.refl _ _ cells _, rfl⟩
  | returned result =>
    exact .inl ⟨.refl _ _ cells _, rfl⟩

/-- What fresh writes keep: the history is serialized, and every replaced
object has a lower version than the map's. -/
structure Invariant (initial : String → Option Contract) (s : State) : Prop where
  serialized : ∃ log, Serialized unchecked initial (row s.cells) s.calls log
  known : ∀ id, (s.cells.get? id).isSome = (initial id).isSome
  older : ∀ id cell, s.cells.get? id = some cell → ∀ old ∈ cell.replaced,
    old.version < cell.current.version

variable (rows : OrderedMap String Contract)

theorem invariant_start : Invariant rows.get? (start rows) where
  serialized := by
    refine ⟨[], List.Perm.refl _, fun _ _ _ => rfl, fun id c there => ?_, by simp [start]⟩
    simp only [start, row, OrderedMap.get?_mapValues, there]
    rfl
  known := by
    intro id
    simp [start, OrderedMap.get?_mapValues]
  older := by
    intro id cell found old mem
    simp only [start, OrderedMap.get?_mapValues, Option.map_eq_some_iff] at found
    obtain ⟨c, -, rfl⟩ := found
    cases mem

variable {initial : String → Option Contract} {s : State}

theorem Invariant.mark (h : Invariant initial s) (id : String) (deletedAt : Option String) :
    Invariant initial { s with cells := mark s.cells id deletedAt } where
  serialized := by
    obtain ⟨log, serialized⟩ := h.serialized
    exact ⟨log, serialized.of_content (content_mark s.cells id deletedAt)⟩
  known := by
    intro id'
    rw [← h.known id', get?_mark]
    by_cases same : id' = id <;> simp [same]
  older := by
    intro id' cell found
    rw [get?_mark] at found
    by_cases same : id' = id
    · rw [if_pos same, Option.map_eq_some_iff] at found
      obtain ⟨cell', found, rfl⟩ := found
      exact h.older id' cell' found
    · rw [if_neg same] at found
      exact h.older id' cell found

theorem deref_current {cell : Cell} {base : Contract}
    (read : cell.deref cell.replaced.length = some base) : cell.current = base := by
  simpa [Cell.deref] using read

theorem Invariant.older_set (h : Invariant initial s) {key : String} {cell : Cell}
    (held : s.cells.get? key = some cell) (fields : ContractFields) {id : String} {cell' : Cell}
    (found : (s.cells.set key ⟨cell.replaced ++ [cell.current], cell.current.updated fields⟩).get? id = some cell')
    {old : Contract} (mem : old ∈ cell'.replaced) : old.version < cell'.current.version := by
  rw [OrderedMap.get?_set] at found
  by_cases same : id = key
  · rw [if_pos same] at found
    cases found
    simp only [updated_version]
    rcases List.mem_append.mp mem with mem | mem
    · have := h.older _ cell held old mem
      omega
    · rw [List.mem_singleton.mp mem]
      omega
  · rw [if_neg same] at found
    exact h.older id cell' found old mem

theorem Invariant.resume (h : Invariant initial s) (i : Nat) (cond : NotStale s (.resume i)) :
    Invariant initial (step s (.resume i)) := by
  obtain ⟨log, serialized⟩ := h.serialized
  have serialized' : Serialized unchecked initial (row (s.cells, s.calls).1) (s.cells, s.calls).2 log :=
    serialized
  cases found : s.calls[i]? with
  | none =>
    have same : Memory.step s (.resume i) = s := by
      simp only [Memory.step]
      rw [resumeAt_of_none found]
    rwa [same]
  | some call =>
    have cells : (Memory.step s (.resume i)).cells = (proceed s.cells call).1 := by
      simp only [Memory.step]
      rw [resumeAt_of_some found]
    rcases proceed_cases s.cells call with ⟨quiet, same⟩ |
      ⟨cell, object, base, awaiting, existing, held, read, wrote, writes⟩
    · exact ⟨⟨log, serialized'.quiet found quiet⟩, by rw [cells, same]; exact h.known,
        by rw [cells, same]; exact h.older⟩
    · have fresh := cond call found awaiting object existing cell held base read writes.expected
      rw [fresh] at read
      have current := deref_current read
      refine ⟨⟨_, serialized'.write found writes ?_⟩, fun id => ?_, ?_⟩
      · simp [row, held, current]
      · rw [← h.known id, cells, wrote, OrderedMap.get?_set]
        by_cases same : id = call.update.id
        · rw [if_pos same, same, held]
          rfl
        · rw [if_neg same]
      · intro id cell' found' old mem
        rw [cells, wrote, ← current] at found'
        exact h.older_set held _ found' mem

theorem Invariant.step (s : State) (e : Event) (h : Invariant initial s) (cond : NotStale s e) :
    Invariant initial (step s e) := by
  cases e with
  | updateWithVersion update =>
    obtain ⟨log, serialized⟩ := h.serialized
    exact ⟨⟨log, serialized.append_call rfl⟩, h.known, h.older⟩
  | delete id now =>
    unfold Memory.step
    dsimp only
    split
    · exact h
    · exact h.mark id (some now)
  | restore id expired =>
    unfold Memory.step
    dsimp only
    split
    · exact h.mark id none
    · exact h
  | resume i => exact h.resume i cond

end Memory

/-! ### Both repositories -/

end TalentTrust.Contracts
