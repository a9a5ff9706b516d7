import TalentTrust.Audit.Repository
import TalentTrust.Auth.Authorization
import TalentTrust.Reputation.Repository

/-!
`ReputationService`: `services/reputation.service.ts`.

`createRating` has a chain of guards, inserts a row and logs it. When the log
fails the caller gets an error, but the row stays. `Ratable` says what the guards
and the table ask of a rating, and `createRating_db` that a call inserts the row
exactly then. Rows are never changed or removed, so a rating that is ratable when
a batch starts stays so until the batch has a row with its triple; what a batch
inserts can thus be read off the table before it (`ratable_of_added`,
`added_of_ratable`).
-/

namespace TalentTrust.Reputation

open TalentTrust.Lib

/-- What the code takes from its platform: the digest, the UUID format of the schemas,
the verifier of tokens, the flag `REPUTATION_ENABLED`, and whether `initialize` was called. -/
structure Host where
  sha256 : String → List UInt8
  isUuid : String → Bool
  verify : String → Except Auth.JwtError Auth.JwtPayload
  enabled : Bool
  initialized : Bool

/-- What the service writes to. -/
structure Backend where
  db : Database
  audit : Audit.Repository

/-- What `createRating` draws, in the table and in the log. -/
structure RatingDraw where
  entry : Draw
  audit : Audit.Draw
  deriving DecidableEq

/-! ### Payloads and comments -/

structure CreateRatingBody where
  reviewerId : String
  contextId : String
  rating : Decimal
  comment : Option String
  deriving DecidableEq

/-- A finite integer from 1 to 5. -/
def isRating (rating : Decimal) : Bool :=
  rating.toNat?.any fun n => 1 ≤ n && n ≤ 5

def isValidReputationRatingPayload (payload : CreateRatingBody) : Bool :=
  payload.reviewerId ≠ "" && isRating payload.rating

def isValidReputationBulkItem (item : CreateReputationEntry) : Bool :=
  item.reviewerId ≠ "" && item.targetId ≠ "" && item.contextId ≠ "" && isRating item.rating

/-- `Math.max(...Object.values(charCount))`. -/
def maxCharCount (text : String) : Nat :=
  (text.toList.map fun c => text.toList.count c).foldl max 0

def validateComment (comment : String) : Except Failure Unit :=
  if 1000 < jsLength comment then
    .error (.validation "Comment exceeds maximum length of 1000 characters")
  else if 0 < jsLength comment ∧ isBlank comment then
    .error (.validation "Comment cannot be empty or whitespace-only")
  else if 0 < jsLength comment ∧ jsLength comment < 2 * maxCharCount comment then
    .error (.validation "Comment contains excessive repetitive content")
  else .ok ()

/-! ### `createRating` -/

/-- The guards of `createRating`, in their order. -/
def guards (host : Host) (db : Database) (rating : CreateReputationEntry) : Except Failure Unit :=
  if host.enabled = false then
    .error (.forbidden "Reputation system is currently disabled")
  else if host.initialized = false then
    .error (.error "ReputationService not initialized. Call initialize() first.")
  else if rating.reviewerId = rating.targetId then
    .error (.forbidden "Users cannot rate themselves")
  else if db.findByReviewerTargetContext rating.reviewerId rating.targetId rating.contextId ≠ none then
    .error (.conflict "Rating already exists for this reviewer, target, and context")
  else if db.verifyContractParticipation rating.contextId rating.reviewerId = false ∨
      db.verifyContractParticipation rating.contextId rating.targetId = false then
    .error (.forbidden "Only contract participants can submit ratings")
  else match Audit.truthy rating.comment with
    | none => .ok ()
    | some comment => validateComment comment

/-- The entry that is logged for a rating; the comment is hashed. -/
def auditInput (host : Host) (entry : ReputationEntry) (totalRatingsBefore : Nat)
    (correlationId : Option String) : Audit.CreateAuditEntryInput :=
  { action := .reputationUpdated
    severity := .info
    actor := entry.reviewerId
    resource := "reputation"
    resourceId := entry.targetId
    metadata :=
      [("entryId", .str entry.id), ("contextId", .str entry.contextId),
        ("before", .obj [("totalRatings", .num (.ofNat totalRatingsBefore))]),
        ("after", .obj ([("totalRatings", .num (.ofNat (totalRatingsBefore + 1))),
          ("rating", .num entry.rating)] ++
            ((Audit.truthy entry.comment).map fun comment =>
              ("comment", Json.str (sha256Hex host.sha256 comment))).toList))]
    ipAddress := none
    correlationId }

def createRating (host : Host) (s : Backend) (rating : CreateReputationEntry)
    (correlationId : Option String) (draw : RatingDraw) : Except Failure ReputationEntry × Backend :=
  match guards host s.db rating with
  | .error failure => (.error failure, s)
  | .ok () =>
    let totalRatingsBefore := (s.db.findByTargetId rating.targetId).length
    match s.db.create rating draw.entry with
    | .error failure => (.error failure, s)
    | .ok (entry, db) =>
      match s.audit.append host.sha256 (auditInput host entry totalRatingsBefore correlationId)
          draw.audit with
      | (.error _, audit) =>
        (.error (.error "Failed to create audit trail. Rating not persisted."), ⟨db, audit⟩)
      | (.ok _, audit) => (.ok entry, ⟨db, audit⟩)

/-! ### The other entry points -/

structure Review where
  reviewerId : String
  rating : Decimal
  comment : Option String
  createdAt : String
  deriving DecidableEq

structure ReputationProfile where
  freelancerId : String
  totalRatings : Nat
  reviews : List Review
  deriving DecidableEq

def buildProfile (targetId : String) (entries : List ReputationEntry) : ReputationProfile :=
  { freelancerId := targetId
    totalRatings := entries.length
    reviews := entries.map fun entry =>
      ⟨entry.reviewerId, entry.rating, entry.comment, entry.createdAt⟩ }

def getProfile (host : Host) (db : Database) (targetId : String) : Except Failure ReputationProfile :=
  if host.enabled = false then .error (.forbidden "Reputation system is currently disabled")
  else if host.initialized = false then
    .error (.error "ReputationService not initialized. Call initialize() first.")
  else if targetId = "" then .error (.badRequest "Freelancer ID is required")
  else .ok (buildProfile targetId (db.findByTargetId targetId))

/-- The rating that a single body stands for. -/
def CreateRatingBody.toEntry (body : CreateRatingBody) (targetId : String) : CreateReputationEntry :=
  { reviewerId := body.reviewerId
    targetId
    rating := body.rating
    comment := body.comment
    contextId := body.contextId }

def updateProfile (host : Host) (s : Backend) (targetId : String) (payload : CreateRatingBody)
    (correlationId : Option String) (draw : RatingDraw) : Except Failure ReputationProfile × Backend :=
  if host.initialized = false then
    (.error (.error "ReputationService not initialized. Call initialize() first."), s)
  else if targetId = "" then (.error (.badRequest "Freelancer ID is required"), s)
  else if isValidReputationRatingPayload payload = false then
    (.error (.badRequest
      "Invalid payload: reviewerId and a valid integer rating (1–5) are required"), s)
  else match createRating host s (payload.toEntry targetId) correlationId draw with
    | (.error failure, s') => (.error failure, s')
    | (.ok _, s') => (getProfile host s'.db targetId, s')

section

variable {host : Host} {s : Backend} {targetId : String} {payload : CreateRatingBody}
  (correlationId : Option String) (draw : RatingDraw)

theorem updateProfile_of_uninitialized (off : host.initialized = false) :
    (updateProfile host s targetId payload correlationId draw).2 = s := by
  rw [updateProfile, if_pos off]

theorem updateProfile_of_invalid
    (invalid : targetId = "" ∨ isValidReputationRatingPayload payload = false) :
    (updateProfile host s targetId payload correlationId draw).2 = s := by
  unfold updateProfile
  split
  · rfl
  split
  · rfl
  split
  · rfl
  · simp_all

theorem updateProfile_of_valid (ready : host.initialized = true) (named : targetId ≠ "")
    (valid : isValidReputationRatingPayload payload = true) :
    (updateProfile host s targetId payload correlationId draw).2 =
      (createRating host s (payload.toEntry targetId) correlationId draw).2 := by
  simp only [updateProfile, ready, named, valid, Bool.true_eq_false, if_false]
  split <;> simp [*]

end

structure BulkResult where
  index : Nat
  outcome : Except Failure ReputationEntry

/-- The loop of `createBulkRatings`, from item `i` on. -/
def bulkLoop (host : Host) (correlationId : Option String) (draws : Nat → RatingDraw) :
    Nat → List CreateReputationEntry → Backend → List BulkResult × Backend
  | _, [], s => ([], s)
  | i, item :: items, s =>
    let (outcome, s') := createRating host s item correlationId (draws i)
    let (results, s'') := bulkLoop host correlationId draws (i + 1) items s'
    (⟨i, outcome⟩ :: results, s'')

def createBulkRatings (host : Host) (s : Backend) (items : List CreateReputationEntry)
    (correlationId : Option String) (draws : Nat → RatingDraw) :
    Except Failure (List BulkResult) × Backend :=
  if host.initialized = false then
    (.error (.error "ReputationService not initialized. Call initialize() first."), s)
  else
    let (results, s') := bulkLoop host correlationId draws 0 items s
    (.ok results, s')

/-! ### When a rating is inserted -/

/-- What the guards and the table ask of a rating, apart from the id that is drawn for it. -/
structure Ratable (host : Host) (db : Database) (rating : CreateReputationEntry) : Prop where
  enabled : host.enabled = true
  initialized : host.initialized = true
  other : rating.reviewerId ≠ rating.targetId
  new : db.New rating
  reviewer : db.verifyContractParticipation rating.contextId rating.reviewerId = true
  target : db.verifyContractParticipation rating.contextId rating.targetId = true
  comment : ∀ comment ∈ Audit.truthy rating.comment, validateComment comment = .ok ()
  checked : rating.Checked
  references : db.References rating

variable {rating : CreateReputationEntry} {db : Database}

theorem guards_of_ratable {host : Host} (ratable : Ratable host db rating) :
    guards host db rating = .ok () := by
  have unrated := (db.findByReviewerTargetContext_eq_none_iff rating).mpr ratable.new
  simp only [guards, ratable.enabled, ratable.initialized, ratable.other, unrated, ratable.reviewer,
    ratable.target, reduceCtorEq, ne_eq, not_true_eq_false, or_self, if_false]
  split
  · rfl
  · rename_i comment given
    exact ratable.comment comment given

theorem ratable_of_guards {host : Host} (passed : guards host db rating = .ok ())
    (checked : rating.Checked) (references : db.References rating) : Ratable host db rating := by
  unfold guards at passed
  split at passed
  · cases passed
  split at passed
  · cases passed
  split at passed
  · cases passed
  split at passed
  · cases passed
  split at passed
  · cases passed
  rename_i enabled initialized other unrated parties
  rw [not_or, Bool.not_eq_false, Bool.not_eq_false] at parties
  refine
    { enabled := Bool.not_eq_false _ ▸ enabled
      initialized := Bool.not_eq_false _ ▸ initialized
      other
      new := (db.findByReviewerTargetContext_eq_none_iff rating).mp (not_not.mp unrated)
      reviewer := parties.1
      target := parties.2
      comment := ?_
      checked
      references }
  intro comment given
  rw [Option.mem_def.mp given] at passed
  exact passed

/-- A call inserts the row of a ratable rating whose id is new, and otherwise leaves the
tables as they are. -/
theorem createRating_db (host : Host) (s : Backend) (rating : CreateReputationEntry)
    (correlationId : Option String) (draw : RatingDraw) :
    (Ratable host s.db rating ∧ ∃ admits : s.db.Admits rating draw.entry,
      (createRating host s rating correlationId draw).2.db = s.db.insert rating draw.entry admits) ∨
    (¬ (Ratable host s.db rating ∧ draw.entry.id ∉ s.db.entries.map (·.id)) ∧
      (createRating host s rating correlationId draw).2.db = s.db) := by
  unfold createRating
  cases passed : guards host s.db rating with
  | error failure =>
    refine .inr ⟨fun ratable => ?_, rfl⟩
    rw [guards_of_ratable ratable.1] at passed
    cases passed
  | ok _ =>
    by_cases admits : s.db.Admits rating draw.entry
    · refine .inl ⟨ratable_of_guards passed admits.checked admits.references, admits, ?_⟩
      simp only [Database.create_of_admits admits]
      split <;> rfl
    · obtain ⟨failure, refused⟩ := Database.create_of_not_admits admits
      refine .inr ⟨fun ratable => admits ?_, ?_⟩
      · exact ⟨ratable.1.checked, ratable.2, ratable.1.new, ratable.1.references⟩
      · simp [refused]

/-! ### What a batch inserts -/

namespace Database

/-- `db'` has the users and contracts of `db`, and more rows. -/
structure Extends (db db' : Database) : Prop where
  users : db'.users = db.users
  contracts : db'.contracts = db.contracts
  entries : db.entries <+: db'.entries

variable (db : Database)

theorem Extends.refl : db.Extends db := ⟨rfl, rfl, List.prefix_rfl⟩

theorem Extends.trans {a b c : Database} (ab : a.Extends b) (bc : b.Extends c) : a.Extends c :=
  ⟨bc.users.trans ab.users, bc.contracts.trans ab.contracts, ab.entries.trans bc.entries⟩

theorem extends_insert {draw : Draw}
    (admits : db.Admits rating draw) : db.Extends (db.insert rating draw admits) :=
  ⟨rfl, rfl, List.prefix_append _ _⟩

theorem verifyContractParticipation_congr {db db' : Database} (same : db'.contracts = db.contracts) :
    db'.verifyContractParticipation = db.verifyContractParticipation := by
  unfold verifyContractParticipation
  rw [same]

end Database

section

variable {host : Host} {rating : CreateReputationEntry} {db db' : Database}

/-- Only the rows can make a difference between a table and an extension of it. -/
theorem ratable_congr (grown : db.Extends db') (new : db'.New rating ↔ db.New rating) :
    Ratable host db' rating ↔ Ratable host db rating := by
  have parties := Database.verifyContractParticipation_congr grown.contracts
  have keys : db'.References rating ↔ db.References rating := by
    unfold Database.References
    rw [grown.users, grown.contracts]
  constructor
  · intro ratable
    exact
      { ratable with
        new := new.mp ratable.new
        reviewer := parties ▸ ratable.reviewer
        target := parties ▸ ratable.target
        references := keys.mp ratable.references }
  · intro ratable
    exact
      { ratable with
        new := new.mpr ratable.new
        reviewer := parties ▸ ratable.reviewer
        target := parties ▸ ratable.target
        references := keys.mpr ratable.references }

theorem Ratable.of_extends (ratable : Ratable host db' rating) (grown : db.Extends db') :
    Ratable host db rating := by
  have new : db.New rating := fun old => ratable.new ((grown.entries.map _).subset old)
  exact (ratable_congr grown (iff_of_true ratable.new new)).mp ratable

theorem Ratable.insert {inserted : CreateReputationEntry} {draw : Draw} (ratable : Ratable host db rating)
    (admits : db.Admits inserted draw) (different : rating.triple ≠ inserted.triple) :
    Ratable host (db.insert inserted draw admits) rating := by
  refine (ratable_congr (db.extends_insert admits) (iff_of_true ?_ ratable.new)).mpr ratable
  intro old
  rw [Database.insert, List.map_append, List.mem_append] at old
  rcases old with old | isNew
  · exact ratable.new old
  · exact different (List.mem_singleton.mp isNew)

end

/-- The ids that are drawn from item `i` on are neither in the table nor equal to each other. -/
structure FreshFrom (draws : Nat → RatingDraw) (i : Nat) (db : Database) : Prop where
  unused : ∀ j, i ≤ j → (draws j).entry.id ∉ db.entries.map (·.id)
  distinct : Function.Injective fun j => (draws j).entry.id

section

variable {host : Host} {correlationId : Option String} {draws : Nat → RatingDraw}
  {items : List CreateReputationEntry}

theorem createRating_extends (host : Host) (s : Backend) (rating : CreateReputationEntry)
    (correlationId : Option String) (draw : RatingDraw) :
    s.db.Extends (createRating host s rating correlationId draw).2.db := by
  rcases createRating_db host s rating correlationId draw with ⟨_, admits, inserted⟩ | ⟨_, kept⟩
  · rw [inserted]
    exact s.db.extends_insert admits
  · rw [kept]
    exact .refl s.db

theorem bulkLoop_cons (i : Nat) (item : CreateReputationEntry) (s : Backend) :
    (bulkLoop host correlationId draws i (item :: items) s).2 =
      (bulkLoop host correlationId draws (i + 1) items
        (createRating host s item correlationId (draws i)).2).2 :=
  rfl

theorem bulkLoop_extends (i : Nat) (s : Backend) :
    s.db.Extends (bulkLoop host correlationId draws i items s).2.db := by
  induction items generalizing i s with
  | nil => exact .refl s.db
  | cons item items ih => exact (createRating_extends host s item correlationId (draws i)).trans (ih _ _)

theorem bulkLoop_uninitialized (off : host.initialized = false) (i : Nat) (s : Backend) :
    (bulkLoop host correlationId draws i items s).2.db = s.db := by
  induction items generalizing i s with
  | nil => rfl
  | cons item items ih =>
    rw [bulkLoop_cons, ih]
    rcases createRating_db host s item correlationId (draws i) with ⟨ratable, _⟩ | ⟨_, kept⟩
    · rw [ratable.initialized] at off
      cases off
    · exact kept

theorem map_index_bulkLoop (i : Nat) (s : Backend) :
    (bulkLoop host correlationId draws i items s).1.map (·.index) = List.range' i items.length := by
  induction items generalizing i s with
  | nil => rfl
  | cons item items ih => exact congrArg (i :: ·) (ih (i + 1) _)

variable {s : Backend} {i : Nat}

/-- A row that a batch adds is that of an item that was ratable when the batch started. -/
theorem ratable_of_added {row : ReputationEntry}
    (stored : row ∈ (bulkLoop host correlationId draws i items s).2.db.entries)
    (added : row ∉ s.db.entries) :
    row.toCreateReputationEntry ∈ items ∧ Ratable host s.db row.toCreateReputationEntry := by
  induction items generalizing i s with
  | nil => exact absurd stored added
  | cons item items ih =>
    have grown := createRating_extends host s item correlationId (draws i)
    by_cases first : row ∈ (createRating host s item correlationId (draws i)).2.db.entries
    · rcases createRating_db host s item correlationId (draws i) with ⟨ratable, _, inserted⟩ | ⟨_, kept⟩
      · rw [inserted] at first
        rcases List.mem_append.mp first with old | isNew
        · exact absurd old added
        · rw [List.mem_singleton.mp isNew]
          exact ⟨List.mem_cons_self, ratable⟩
      · rw [kept] at first
        exact absurd first added
    · obtain ⟨later, ratable⟩ := ih stored first
      exact ⟨List.mem_cons_of_mem _ later, ratable.of_extends grown⟩

theorem FreshFrom.createRating (fresh : FreshFrom draws i s.db) (host : Host)
    (correlationId : Option String) (item : CreateReputationEntry) :
    FreshFrom draws (i + 1) (createRating host s item correlationId (draws i)).2.db := by
  refine ⟨fun j beyond old => ?_, fresh.distinct⟩
  have unused := fresh.unused j (Nat.le_of_succ_le beyond)
  rcases createRating_db host s item correlationId (draws i) with ⟨_, _, inserted⟩ | ⟨_, kept⟩
  · rw [inserted, Database.insert, List.map_append, List.mem_append] at old
    rcases old with old | taken
    · exact unused old
    · have same : j = i := fresh.distinct (List.mem_singleton.mp taken)
      omega
  · rw [kept] at old
    exact unused old

/-- For an item that is ratable when a batch starts, the batch leaves a row with its triple. -/
theorem added_of_ratable (fresh : FreshFrom draws i s.db) {item : CreateReputationEntry}
    (listed : item ∈ items) (ratable : Ratable host s.db item) :
    item.triple ∈ (bulkLoop host correlationId draws i items s).2.db.entries.map (·.triple) := by
  induction items generalizing i s with
  | nil => cases listed
  | cons head items ih =>
    rw [bulkLoop_cons]
    have next := fresh.createRating host correlationId head
    rcases createRating_db host s head correlationId (draws i) with
      ⟨_, admits, inserted⟩ | ⟨refused, same⟩
    · by_cases twin : item.triple = head.triple
      · -- The row of the head is the one, and the rest of the batch keeps it.
        refine ((bulkLoop_extends (i + 1) _).entries.map _).subset ?_
        rw [inserted, twin, Database.insert, List.map_append]
        exact List.mem_append_right _ List.mem_cons_self
      · have later : item ∈ items := by
          rcases List.mem_cons.mp listed with rfl | later
          · exact absurd rfl twin
          · exact later
        have still : Ratable host (createRating host s head correlationId (draws i)).2.db item := by
          rw [inserted]
          exact ratable.insert admits twin
        exact ih next later still
    · rcases List.mem_cons.mp listed with rfl | later
      · exact absurd ⟨ratable, fresh.unused i (Nat.le_refl i)⟩ refused
      · have still : Ratable host (createRating host s head correlationId (draws i)).2.db item := by
          rw [same]
          exact ratable
        exact ih next later still

end

end TalentTrust.Reputation
