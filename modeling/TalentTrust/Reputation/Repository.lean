import TalentTrust.Audit.SqliteRepository

/-!
The table of ratings: `repositories/reputationRepository.ts` and the tables of
`db/migrations.ts` that it reads.

A `Database` carries the constraints of `reputation_entries`, so a table that
breaks one cannot be built. `create` inserts a row exactly when the row meets
them (`create_of_admits`); one that does not leaves the table as it was, by the
type of its result.
-/

namespace TalentTrust.Reputation

open TalentTrust.Lib

/-! ### Rows -/

structure CreateReputationEntry where
  reviewerId : String
  targetId : String
  rating : Decimal
  comment : Option String
  contextId : String
  deriving DecidableEq

structure ReputationEntry extends CreateReputationEntry where
  id : String
  createdAt : String
  deriving DecidableEq

structure Draw where
  id : String
  createdAt : String
  deriving DecidableEq

def CreateReputationEntry.row (entry : CreateReputationEntry) (draw : Draw) : ReputationEntry :=
  { toCreateReputationEntry := entry, id := draw.id, createdAt := draw.createdAt }

/-- The columns that `UNIQUE` covers. -/
def CreateReputationEntry.triple (entry : CreateReputationEntry) : String × String × String :=
  (entry.reviewerId, entry.targetId, entry.contextId)

/-- The columns of `contracts` that are read. -/
structure Contract where
  id : String
  clientId : String
  freelancerId : String
  deriving DecidableEq

/-- `length(text)` in SQL: the characters before the first NUL. -/
def sqlLength (text : String) : Nat :=
  (text.toList.takeWhile fun c => c ≠ Char.ofNat 0).length

/-- The `CHECK` constraints of a row. -/
def CreateReputationEntry.Checked (entry : CreateReputationEntry) : Prop :=
  entry.rating.less (.ofNat 1) = false ∧ (Decimal.ofNat 5).less entry.rating = false ∧
    ∀ comment ∈ entry.comment, sqlLength comment ≤ 1000

instance (entry : CreateReputationEntry) : Decidable entry.Checked :=
  inferInstanceAs (Decidable (_ ∧ _ ∧ ∀ comment ∈ entry.comment, sqlLength comment ≤ 1000))

/-! ### Tables -/

/-- The tables `users` (their ids), `contracts` and `reputation_entries`. -/
structure Database where
  users : List String
  contracts : List Contract
  entries : List ReputationEntry
  ids_differ : (entries.map (·.id)).Nodup
  triples_differ : (entries.map (·.triple)).Nodup
  checked : ∀ entry ∈ entries, entry.Checked
  reviewers : ∀ entry ∈ entries, entry.reviewerId ∈ users
  targets : ∀ entry ∈ entries, entry.targetId ∈ users
  contexts : ∀ entry ∈ entries, entry.contextId ∈ contracts.map (·.id)

namespace Database

variable (db : Database) (entry : CreateReputationEntry)

/-- The foreign keys of a row. -/
def References : Prop :=
  entry.reviewerId ∈ db.users ∧ entry.targetId ∈ db.users ∧
    entry.contextId ∈ db.contracts.map (·.id)

/-- No row has the triple of this one. -/
def New : Prop :=
  entry.triple ∉ db.entries.map (·.triple)

/-- Every constraint of the table, for the row made of an input and a draw. -/
structure Admits (draw : Draw) : Prop where
  checked : entry.Checked
  fresh : draw.id ∉ db.entries.map (·.id)
  new : db.New entry
  references : db.References entry

instance (db : Database) (entry : CreateReputationEntry) : Decidable (db.References entry) :=
  inferInstanceAs (Decidable (_ ∧ _ ∧ _))

instance (db : Database) (entry : CreateReputationEntry) : Decidable (db.New entry) :=
  inferInstanceAs (Decidable (_ ∉ _))

def insert (draw : Draw) (admits : db.Admits entry draw) : Database where
  users := db.users
  contracts := db.contracts
  entries := db.entries ++ [entry.row draw]
  ids_differ := by
    rw [List.map_append]
    exact db.ids_differ.append (List.nodup_singleton _) (List.disjoint_singleton.mpr admits.fresh)
  triples_differ := by
    rw [List.map_append]
    exact db.triples_differ.append (List.nodup_singleton _) (List.disjoint_singleton.mpr admits.new)
  checked := List.forall_mem_append.mpr ⟨db.checked, List.forall_mem_singleton.mpr admits.checked⟩
  reviewers := List.forall_mem_append.mpr
    ⟨db.reviewers, List.forall_mem_singleton.mpr admits.references.1⟩
  targets := List.forall_mem_append.mpr
    ⟨db.targets, List.forall_mem_singleton.mpr admits.references.2.1⟩
  contexts := List.forall_mem_append.mpr
    ⟨db.contexts, List.forall_mem_singleton.mpr admits.references.2.2⟩

end Database

/-! ### The repository -/

/-- What a call throws: an error of `errors/appError.ts`, a plain `Error`, or an
error of the database about a constraint. -/
inductive Failure where
  | badRequest (message : String)
  | forbidden (message : String)
  | conflict (message : String)
  | validation (message : String)
  | error (message : String)
  | checkConstraint
  | foreignKeyConstraint
  deriving DecidableEq

namespace Database

variable (db : Database)

/-- `create`. The database looks at the `CHECK` constraints first, then at the unique
columns, and at the foreign keys when the statement is over. A taken id is reported as
a duplicate rating, since the message of the error is all that `create` reads. -/
def create (entry : CreateReputationEntry) (draw : Draw) :
    Except Failure (ReputationEntry × Database) :=
  if checked : entry.Checked then
    if unique : draw.id ∉ db.entries.map (·.id) ∧ db.New entry then
      if references : db.References entry then
        .ok (entry.row draw, db.insert entry draw ⟨checked, unique.1, unique.2, references⟩)
      else .error .foreignKeyConstraint
    else .error (.conflict "Rating already exists for this reviewer, target, and context")
  else .error .checkConstraint

def findByReviewerTargetContext (reviewerId targetId contextId : String) : Option ReputationEntry :=
  db.entries.find? fun entry =>
    entry.reviewerId = reviewerId ∧ entry.targetId = targetId ∧ entry.contextId = contextId

/-- `findByTargetId`: newest first. -/
def findByTargetId (targetId : String) : List ReputationEntry :=
  (db.entries.filter fun entry => entry.targetId = targetId).mergeSort fun a b =>
    Audit.AuditTable.byteLe b.createdAt a.createdAt

def verifyContractParticipation (contractId userId : String) : Bool :=
  db.contracts.any fun contract =>
    contract.id = contractId ∧ (contract.clientId = userId ∨ contract.freelancerId = userId)

/-! ### What `create` does -/

variable {entry : CreateReputationEntry} {db : Database}

theorem create_of_admits {draw : Draw} (admits : db.Admits entry draw) :
    db.create entry draw = .ok (entry.row draw, db.insert entry draw admits) := by
  unfold create
  rw [dif_pos admits.checked, dif_pos ⟨admits.fresh, admits.new⟩, dif_pos admits.references]

theorem create_of_not_admits {draw : Draw} (refused : ¬ db.Admits entry draw) :
    ∃ failure, db.create entry draw = .error failure := by
  unfold create
  split
  · rename_i checked
    split
    · rename_i unique
      split
      · rename_i references
        exact absurd ⟨checked, unique.1, unique.2, references⟩ refused
      · exact ⟨_, rfl⟩
    · exact ⟨_, rfl⟩
  · exact ⟨_, rfl⟩

variable (db entry) in
theorem findByReviewerTargetContext_eq_none_iff :
    db.findByReviewerTargetContext entry.reviewerId entry.targetId entry.contextId = none ↔
      db.New entry := by
  unfold findByReviewerTargetContext New
  rw [List.find?_eq_none, List.mem_map, not_exists]
  refine forall_congr' fun row => ?_
  rw [not_and, decide_eq_true_eq]
  refine imp_congr_right fun _ => not_congr ?_
  simp [CreateReputationEntry.triple]

end Database

end TalentTrust.Reputation
