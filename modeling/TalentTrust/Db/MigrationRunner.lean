import TalentTrust.Lib.Run
import TalentTrust.Lib.Text

/-!
The migration runner of `db/migrations.ts`, over any list of migrations.

A call of `runMigrations` checks the rows of `schema_version` against the list and then applies
what is pending, each migration in a transaction together with its row. Any `up` may throw, in
any call, and the stored names and checksums may be changed between the calls. In every run the
applied versions are the first ones of the list and the data is what these have made of it, each
run once (`migrations_resume`); a row that matches no fingerprint stops the call before
anything is run (`throws_of_tampered`); and a call in which nothing throws finishes the list
(`finishes_of_untampered`).
-/

namespace TalentTrust.Db

open TalentTrust.Lib

/-! ### Migrations and their fingerprints -/

/-- `Migration`, over a type of schemas with their data. What `up` throws is a message, with the
state that it has left behind. -/
structure Migration (σ : Type) where
  version : Nat
  name : String
  checksumSource : Option String
  /-- `up.toString()`. -/
  upText : String
  up : σ → Except (String × σ) σ

variable {σ : Type}

section Checksums

variable (sha256 : String → List UInt8) (migration : Migration σ)

/-- The digest of the version, the name and a source text. -/
def fingerprint (source : String) : String :=
  sha256Hex sha256 (toString migration.version ++ "\n" ++ migration.name ++ "\n" ++ source)

def computeMigrationChecksum : String :=
  fingerprint sha256 migration (migration.checksumSource.getD migration.upText)

def computeLegacyMigrationChecksum : Option String :=
  migration.checksumSource.map fun _ => fingerprint sha256 migration migration.upText

end Checksums

/-- The versions of the list are 1, 2, 3 and so on. -/
def assertMigrationsAreValid (migrations : List (Migration σ)) : Except String Unit :=
  go 1 migrations
where
  go (expectedVersion : Nat) : List (Migration σ) → Except String Unit
    | [] => .ok ()
    | migration :: rest =>
      if migration.version ≠ expectedVersion then
        .error ("Invalid migration sequence: expected version " ++ toString expectedVersion ++
          ", got " ++ toString migration.version)
      else go (expectedVersion + 1) rest

/-! ### The table of applied migrations -/

structure AppliedMigration where
  version : Nat
  name : String
  checksum : Option String
  appliedAt : String
  deriving DecidableEq

/-- `schema_version`, in the order of its primary key. -/
structure SchemaVersion where
  rows : List AppliedMigration
  ordered : (rows.map (·.version)).Pairwise (· < ·)

namespace SchemaVersion

def empty : SchemaVersion := ⟨[], List.Pairwise.nil⟩

def versions (table : SchemaVersion) : List Nat := table.rows.map (·.version)

def place (row : AppliedMigration) : List AppliedMigration → List AppliedMigration
  | [] => [row]
  | first :: rest => if row.version < first.version then row :: first :: rest else first :: place row rest

variable {rows : List AppliedMigration} {row : AppliedMigration}

theorem mem_versions_place {v : Nat} (mem : v ∈ (place row rows).map (·.version)) :
    v = row.version ∨ v ∈ rows.map (·.version) := by
  induction rows with
  | nil => exact .inl (List.mem_singleton.mp mem)
  | cons first rest ih =>
    rw [place] at mem
    split at mem
    · exact List.mem_cons.mp mem
    · rcases List.mem_cons.mp mem with rfl | later
      · exact .inr List.mem_cons_self
      · exact (ih later).imp_right (List.mem_cons_of_mem _)

theorem ordered_place (ordered : (rows.map (·.version)).Pairwise (· < ·))
    (fresh : row.version ∉ rows.map (·.version)) :
    ((place row rows).map (·.version)).Pairwise (· < ·) := by
  induction rows with
  | nil => exact List.pairwise_singleton _ _
  | cons first rest ih =>
    obtain ⟨below, rest_ordered⟩ := List.pairwise_cons.mp ordered
    rw [place]
    split
    · rename_i less
      refine List.pairwise_cons.mpr ⟨fun v mem => ?_, ordered⟩
      rcases List.mem_cons.mp mem with rfl | later
      · exact less
      · exact less.trans (below v later)
    · rename_i notLess
      refine List.pairwise_cons.mpr ⟨fun v mem => ?_, ih rest_ordered fun later => fresh (List.mem_cons_of_mem _ later)⟩
      rcases mem_versions_place mem with rfl | later
      · exact lt_of_le_of_ne (not_lt.mp notLess) fun same => fresh (by simp [same])
      · exact below v later

theorem place_of_above (above : ∀ v ∈ rows.map (·.version), v < row.version) :
    place row rows = rows ++ [row] := by
  induction rows with
  | nil => rfl
  | cons first rest ih =>
    obtain ⟨less, later⟩ := List.forall_mem_cons.mp above
    rw [place, if_neg less.le.not_gt, ih later, List.cons_append]

/-- `INSERT INTO schema_version`. -/
def insert (table : SchemaVersion) (row : AppliedMigration) : Except String SchemaVersion :=
  if taken : row.version ∈ table.versions then
    .error "UNIQUE constraint failed: schema_version.version"
  else .ok ⟨place row table.rows, ordered_place table.ordered taken⟩

/-- The names and the checksums of the rows, changed from outside. -/
def rewrite (table : SchemaVersion) (edit : AppliedMigration → String × Option String) :
    SchemaVersion where
  rows := table.rows.map fun row => { row with name := (edit row).1, checksum := (edit row).2 }
  ordered := by
    rw [List.map_map]
    exact table.ordered

end SchemaVersion

/-! ### Verification -/

section Verification

variable (sha256 : String → List UInt8) (migrations : List (Migration σ))

/-- What the loop of `verifyAppliedMigrations` makes of a row: it may fill in the checksum or
bring it up to date. -/
def verifyApplied (applied : AppliedMigration) : Except String AppliedMigration :=
  match migrations.find? fun migration => migration.version = applied.version with
  | none =>
    .error ("Applied migration " ++ toString applied.version ++ " (" ++ applied.name ++
      ") is not present in the migration list")
  | some migration =>
    let expectedChecksum := computeMigrationChecksum sha256 migration
    if applied.name ≠ migration.name then
      .error ("Applied migration " ++ toString applied.version ++ " name mismatch: expected " ++
        migration.name ++ ", got " ++ applied.name)
    else match applied.checksum with
      | none => .ok { applied with checksum := some expectedChecksum }
      | some checksum =>
        if checksum = expectedChecksum then .ok applied
        else if computeLegacyMigrationChecksum sha256 migration = some checksum then
          .ok { applied with checksum := some expectedChecksum }
        else
          .error ("Applied migration " ++ toString applied.version ++
            " checksum mismatch; refusing to start")

/-- The loop: what it has written before an error stays. -/
def verifyRows : List AppliedMigration → List AppliedMigration × Except String Unit
  | [] => ([], .ok ())
  | applied :: rest =>
    match verifyApplied sha256 migrations applied with
    | .error message => (applied :: rest, .error message)
    | .ok verified => (verified :: (verifyRows rest).1, (verifyRows rest).2)

theorem version_of_verifyApplied {applied verified : AppliedMigration}
    (ok : verifyApplied sha256 migrations applied = .ok verified) :
    verified.version = applied.version := by
  simp only [verifyApplied] at ok
  repeat' split at ok
  all_goals cases ok
  all_goals rfl

theorem versions_verifyRows (rows : List AppliedMigration) :
    (verifyRows sha256 migrations rows).1.map (·.version) = rows.map (·.version) := by
  induction rows with
  | nil => rfl
  | cons applied rest ih =>
    rw [verifyRows]
    split
    · rfl
    · rename_i ok
      rw [List.map_cons, List.map_cons, ih, version_of_verifyApplied sha256 migrations ok]

/-- The table as `verifyAppliedMigrations` leaves it. -/
def SchemaVersion.verified (table : SchemaVersion) : SchemaVersion where
  rows := (verifyRows sha256 migrations table.rows).1
  ordered := by
    rw [versions_verifyRows]
    exact table.ordered

end Verification

/-! ### Calls -/

structure Database (σ : Type) where
  schemaVersion : SchemaVersion
  data : σ

/-- A call of an `up` that came to an end. -/
structure UpCall where
  version : Nat
  committed : Bool
  deriving DecidableEq

/-- A database, with the calls of `up` so far. -/
structure State (σ : Type) where
  db : Database σ
  ran : List UpCall

def State.fresh (data : σ) : State σ := ⟨⟨.empty, data⟩, []⟩

/-- What a call of `runMigrations` meets: for every version an error from outside, with what `up`
has done until then, or none; and the time at which it is applied. -/
structure Call (σ : Type) where
  fault : Nat → Option (String × (σ → σ))
  now : Nat → String

/-- `migration.up(db)` in a call. -/
def Call.up (call : Call σ) (migration : Migration σ) (data : σ) : Except (String × σ) σ :=
  match call.fault migration.version with
  | some (message, partly) => .error (message, partly data)
  | none => migration.up data

/-- `db.transaction(body)()`: what the body has done before it throws is rolled back. -/
def transaction (body : Database σ → Except (String × Database σ) (Database σ)) (db : Database σ) :
    Except String Unit × Database σ :=
  match body db with
  | .ok after => (.ok (), after)
  | .error (message, _) => (.error message, db)

section Runner

variable (sha256 : String → List UInt8) (call : Call σ) (migration : Migration σ)

def appliedRow : AppliedMigration :=
  ⟨migration.version, migration.name, some (computeMigrationChecksum sha256 migration),
    call.now migration.version⟩

def applyBody (db : Database σ) : Except (String × Database σ) (Database σ) :=
  match call.up migration db.data with
  | .error (message, partly) => .error (message, { db with data := partly })
  | .ok data =>
    match db.schemaVersion.insert (appliedRow sha256 call migration) with
    | .error message => .error (message, { db with data })
    | .ok schemaVersion => .ok ⟨schemaVersion, data⟩

def applyMigration (s : State σ) : Except String Unit × State σ :=
  let (result, db) := transaction (applyBody sha256 call migration) s.db
  (result, ⟨db, s.ran ++ [⟨migration.version, result.toBool⟩]⟩)

/-- The loop over the list; `applied` was read before it. -/
def applyPending (call : Call σ) (applied : List Nat) :
    List (Migration σ) → State σ → Except String Unit × State σ
  | [], s => (.ok (), s)
  | migration :: rest, s =>
    if migration.version ∈ applied then applyPending call applied rest s
    else
      match applyMigration sha256 call migration s with
      | (.error message, s) => (.error message, s)
      | (.ok (), s) => applyPending call applied rest s

def runMigrations (migrations : List (Migration σ)) (call : Call σ) (s : State σ) :
    Except String Unit × State σ :=
  match assertMigrationsAreValid migrations with
  | .error message => (.error message, s)
  | .ok () =>
    let verified : State σ :=
      { s with db := { s.db with schemaVersion := s.db.schemaVersion.verified sha256 migrations } }
    match (verifyRows sha256 migrations s.db.schemaVersion.rows).2 with
    | .error message => (.error message, verified)
    | .ok () => applyPending sha256 call s.db.schemaVersion.versions migrations verified

/-- What happens to a database: a call, or a change of what is stored about the applied
migrations. -/
inductive Event (σ : Type) where
  | call (call : Call σ)
  | rewrite (edit : AppliedMigration → String × Option String)

def step (migrations : List (Migration σ)) (s : State σ) : Event σ → State σ
  | .call call => (runMigrations sha256 migrations call s).2
  | .rewrite edit => { s with db := { s.db with schemaVersion := s.db.schemaVersion.rewrite edit } }

end Runner

/-! ### Valid lists -/

variable {migrations : List (Migration σ)}

theorem versions_of_go {v : Nat} (valid : assertMigrationsAreValid.go v migrations = .ok ()) :
    migrations.map (·.version) = List.range' v migrations.length := by
  induction migrations generalizing v with
  | nil => rfl
  | cons migration rest ih =>
    rw [assertMigrationsAreValid.go] at valid
    split at valid
    · cases valid
    · rename_i same
      rw [List.map_cons, List.length_cons, List.range'_succ, ih valid, not_not.mp same]

theorem versions_of_valid (valid : assertMigrationsAreValid migrations = .ok ()) :
    migrations.map (·.version) = List.range' 1 migrations.length :=
  versions_of_go valid

theorem valid_take (valid : assertMigrationsAreValid migrations = .ok ()) (n : Nat) :
    assertMigrationsAreValid (migrations.take n) = .ok () := by
  rw [assertMigrationsAreValid] at valid ⊢
  generalize 1 = v at valid ⊢
  induction migrations generalizing v n with
  | nil => rwa [List.take_nil]
  | cons migration rest ih =>
    cases n with
    | zero => rfl
    | succ n =>
      rw [assertMigrationsAreValid.go] at valid
      rw [List.take_succ_cons, assertMigrationsAreValid.go]
      split at valid
      · cases valid
      · rename_i same
        rw [if_neg same]
        exact ih n (v + 1) valid

theorem versions_drop (versioned : migrations.map (·.version) = List.range' 1 migrations.length)
    (k : Nat) :
    (migrations.drop k).map (·.version) = List.range' (k + 1) (migrations.drop k).length := by
  rw [List.map_drop, versioned, List.drop_range', List.length_drop, Nat.mul_one, Nat.add_comm]

variable (migrations) in
/-- What the migrations of a list make of the data, one after another. -/
def applyAll (data : σ) : Except (String × σ) σ :=
  migrations.foldlM (fun data migration => migration.up data) data

theorem applyAll_cons (migration : Migration σ) (rest : List (Migration σ)) (data : σ) :
    applyAll (migration :: rest) data = (migration.up data).bind (applyAll rest) := rfl

theorem applyAll_append (first rest : List (Migration σ)) (data : σ) :
    applyAll (first ++ rest) data = (applyAll first data).bind (applyAll rest) :=
  List.foldlM_append

/-! ### What a call does -/

section Progress

variable {sha256 : String → List UInt8} {call : Call σ}

variable (sha256 call) in
theorem applyMigration_cases (migration : Migration σ)
    (s : State σ) (above : ∀ v ∈ s.db.schemaVersion.versions, v < migration.version) :
    (∃ data after, call.up migration s.db.data = .ok data ∧
        applyMigration sha256 call migration s = (.ok (), after) ∧
        after.db.schemaVersion.rows =
          s.db.schemaVersion.rows ++ [appliedRow sha256 call migration] ∧
        after.db.data = data ∧ after.ran = s.ran ++ [⟨migration.version, true⟩]) ∨
      ∃ message partly, call.up migration s.db.data = .error (message, partly) ∧
        applyMigration sha256 call migration s =
          (.error message, ⟨s.db, s.ran ++ [⟨migration.version, false⟩]⟩) := by
  cases called : call.up migration s.db.data with
  | error thrown =>
    obtain ⟨message, partly⟩ := thrown
    refine .inr ⟨message, partly, rfl, ?_⟩
    simp only [applyMigration, transaction, applyBody, called]
    rfl
  | ok data =>
    have fresh : (appliedRow sha256 call migration).version ∉ s.db.schemaVersion.versions :=
      fun mem => lt_irrefl _ (above _ mem)
    have ordered := SchemaVersion.ordered_place s.db.schemaVersion.ordered fresh
    refine .inl ⟨data, ⟨⟨⟨_, ordered⟩, data⟩, s.ran ++ [⟨migration.version, true⟩]⟩, rfl, ?_, ?_,
      rfl, rfl⟩
    · simp only [applyMigration, transaction, applyBody, called, SchemaVersion.insert]
      rw [dif_neg fresh]
      rfl
    · exact SchemaVersion.place_of_above above

variable (sha256 call) in
/-- What a call has done with the pending migrations: it has applied the first `j` of them. -/
structure Progress (pending : List (Migration σ)) (k : Nat)
    (s : State σ) (j : Nat) (result : Except String Unit) (after : State σ) : Prop where
  within : j ≤ pending.length
  versions : after.db.schemaVersion.versions = List.range' 1 (k + j)
  rows : after.db.schemaVersion.rows =
    s.db.schemaVersion.rows ++ (pending.take j).map (appliedRow sha256 call)
  data : applyAll (pending.take j) s.db.data = .ok after.db.data
  ran : ∃ last, after.ran = s.ran ++ (List.range' (k + 1) j).map (⟨·, true⟩) ++ last ∧
    (last = [] ∨ last = [⟨k + j + 1, false⟩])
  finished : result = .ok () → j = pending.length
  stopped : ∀ message, result = .error message →
    ∃ migration partly, pending[j]? = some migration ∧
      call.up migration after.db.data = .error (message, partly)

section Faultless

variable {pending : List (Migration σ)} {k j : Nat} {s after : State σ} {result : Except String Unit}
  (progress : Progress sha256 call pending k s j result after)

include progress

/-- A call that succeeds has applied all that was pending. -/
theorem Progress.applies
    (ok : result = .ok ()) : applyAll pending s.db.data = .ok after.db.data := by
  have data := progress.data
  rwa [progress.finished ok, List.take_length] at data

/-- If the pending migrations can be applied, a call without faults succeeds. -/
theorem Progress.finishes (faultless : ∀ v, call.fault v = none) {final : σ}
    (applies : applyAll pending s.db.data = .ok final) : result = .ok () := by
  cases result with
  | ok _ => rfl
  | error message =>
    -- Were the call stopped at `j`, the list as a whole would throw there too.
    obtain ⟨migration, partly, found, thrown⟩ := progress.stopped message rfl
    rw [Call.up, faultless] at thrown
    obtain ⟨bound, rfl⟩ := List.getElem?_eq_some_iff.mp found
    rw [← List.take_append_drop j pending, applyAll_append, progress.data,
      List.drop_eq_getElem_cons bound] at applies
    simp only [Except.bind, applyAll_cons, thrown] at applies
    cases applies

end Faultless

variable {migrations : List (Migration σ)} {s : State σ}

variable (sha256 call) in
theorem applyPending_progress {applied k : Nat} (pending : applied ≤ k)
    (versioned : migrations.map (·.version) = List.range' (k + 1) migrations.length)
    (reached : s.db.schemaVersion.versions = List.range' 1 k) :
    ∃ j, Progress sha256 call migrations k s j
      (applyPending sha256 call (List.range' 1 applied) migrations s).1
      (applyPending sha256 call (List.range' 1 applied) migrations s).2 := by
  -- The induction is on the migrations that are left; each that is applied moves `k` on.
  induction migrations generalizing k s with
  | nil =>
    refine ⟨0, le_refl _, reached, (List.append_nil _).symm, rfl,
      ⟨[], by simp [applyPending], .inl rfl⟩, fun _ => rfl, ?_⟩
    intro message eq
    cases eq
  | cons migration rest ih =>
    rw [List.map_cons, List.length_cons, List.range'_succ, List.cons.injEq] at versioned
    obtain ⟨version, versioned⟩ := versioned
    have unapplied : migration.version ∉ List.range' 1 applied := by
      rw [List.mem_range'_1]
      omega
    have above : ∀ v ∈ s.db.schemaVersion.versions, v < migration.version := by
      rw [reached]
      intro v mem
      rw [List.mem_range'_1] at mem
      omega
    rw [applyPending, if_neg unapplied]
    rcases applyMigration_cases sha256 call migration s above with
      ⟨data, after, called, eq, rows, changed, ran⟩ | ⟨message, partly, called, eq⟩
    · have next : after.db.schemaVersion.versions = List.range' 1 (k + 1) := by
        rw [SchemaVersion.versions, rows, List.map_append, List.range'_concat]
        exact congrArg₂ _ reached (by simp [appliedRow, version, Nat.add_comm])
      obtain ⟨j, progress⟩ := ih (by omega) versioned next
      have shift : k + 1 + j = k + (j + 1) := by omega
      rw [eq]
      refine ⟨j + 1, Nat.succ_le_succ progress.within, ?_, ?_, ?_, ?_, ?_, ?_⟩
      · rw [← shift]
        exact progress.versions
      · rw [progress.rows, rows, List.take_succ_cons, List.map_cons, List.append_assoc,
          List.singleton_append]
      · have own : migration.up s.db.data = .ok after.db.data := by
          rw [Call.up] at called
          split at called
          · cases called
          · rw [called, changed]
        rw [List.take_succ_cons, applyAll_cons, own]
        exact progress.data
      · obtain ⟨last, log, ends⟩ := progress.ran
        refine ⟨last, ?_, ?_⟩
        · rw [log, ran, version, List.range'_succ]
          simp
        · rwa [shift] at ends
      · intro ok
        rw [progress.finished ok, List.length_cons]
      · intro message eq
        obtain ⟨stopped, partly, at', thrown⟩ := progress.stopped message eq
        exact ⟨stopped, partly, by rw [List.getElem?_cons_succ]; exact at', thrown⟩
    · rw [eq]
      refine ⟨0, Nat.zero_le _, reached, (List.append_nil _).symm, rfl,
        ⟨[⟨k + 1, false⟩], ?_, .inr rfl⟩, ?_, ?_⟩
      · simp [version]
      · intro eq
        cases eq
      · rintro _ ⟨⟩
        exact ⟨migration, partly, rfl, called⟩

theorem applyPending_skip (applied : List Nat) {first rest : List (Migration σ)}
    (skipped : ∀ migration ∈ first, migration.version ∈ applied) (s : State σ) :
    applyPending sha256 call applied (first ++ rest) s = applyPending sha256 call applied rest s := by
  induction first with
  | nil => rfl
  | cons migration first ih =>
    obtain ⟨here, later⟩ := List.forall_mem_cons.mp skipped
    rw [List.cons_append, applyPending, if_pos here, ih later]

variable (sha256 migrations s) in
def State.verified : State σ :=
  { s with db := { s.db with schemaVersion := s.db.schemaVersion.verified sha256 migrations } }

variable (migrations s) in
theorem versions_verified :
    (s.verified sha256 migrations).db.schemaVersion.versions = s.db.schemaVersion.versions :=
  versions_verifyRows sha256 migrations _

variable (valid : assertMigrationsAreValid migrations = .ok ())

include valid

variable (call) in
theorem runMigrations_progress {k : Nat} (reached : s.db.schemaVersion.versions = List.range' 1 k)
    (verified : (verifyRows sha256 migrations s.db.schemaVersion.rows).2 = .ok ()) :
    ∃ j, Progress sha256 call (migrations.drop k) k (s.verified sha256 migrations) j
      (runMigrations sha256 migrations call s).1 (runMigrations sha256 migrations call s).2 := by
  have versioned := versions_of_valid valid
  have reached' : (s.verified sha256 migrations).db.schemaVersion.versions = List.range' 1 k :=
    (versions_verified migrations s).trans reached
  have skipped : ∀ migration ∈ migrations.take k, migration.version ∈ List.range' 1 k := by
    intro migration mem
    have listed : migration.version ∈ (migrations.take k).map (·.version) := List.mem_map_of_mem mem
    rw [List.map_take, versioned, List.mem_take_iff_getElem] at listed
    obtain ⟨i, below, version⟩ := listed
    rw [List.getElem_range'] at version
    rw [List.mem_range'_1]
    omega
  have whole : runMigrations sha256 migrations call s =
      applyPending sha256 call (List.range' 1 k) (migrations.drop k) (s.verified sha256 migrations) := by
    rw [runMigrations, valid]
    simp only [verified, reached]
    change applyPending sha256 call _ migrations (s.verified sha256 migrations) = _
    generalize s.verified sha256 migrations = before
    conv_lhs => rw [← List.take_append_drop k migrations]
    exact applyPending_skip _ skipped before
  rw [whole]
  exact applyPending_progress sha256 call (le_refl k) (versions_drop versioned k) reached'

theorem runMigrations_refused {message : String}
    (refused : (verifyRows sha256 migrations s.db.schemaVersion.rows).2 = .error message) :
    runMigrations sha256 migrations call s = (.error message, s.verified sha256 migrations) := by
  rw [runMigrations, valid]
  simp only [refused]
  rfl

end Progress

/-! ### Rows that match no fingerprint -/

/-- The name or the checksum of a row is not that of its migration, nor is the checksum the one
from before `checksumSource`; or there is no such migration. -/
def Tampered (sha256 : String → List UInt8) (migrations : List (Migration σ)) (row : AppliedMigration) :
    Prop :=
  ∀ migration ∈ migrations, migration.version = row.version →
    row.name ≠ migration.name ∨
      ∃ checksum, row.checksum = some checksum ∧ checksum ≠ computeMigrationChecksum sha256 migration ∧
        computeLegacyMigrationChecksum sha256 migration ≠ some checksum

section Tampering

variable {sha256 : String → List UInt8} {migrations : List (Migration σ)} {row : AppliedMigration}

theorem verifyApplied_of_tampered (tampered : Tampered sha256 migrations row) :
    ∃ message, verifyApplied sha256 migrations row = .error message := by
  simp only [verifyApplied]
  cases found : migrations.find? fun migration => migration.version = row.version with
  | none => exact ⟨_, rfl⟩
  | some migration =>
    have same : migration.version = row.version := by simpa using List.find?_some found
    rcases tampered migration (List.mem_of_find?_eq_some found) same with
      renamed | ⟨checksum, stored, other, notLegacy⟩
    · exact ⟨_, if_pos renamed⟩
    · by_cases renamed : row.name ≠ migration.name
      · exact ⟨_, if_pos renamed⟩
      · simp only [if_neg renamed, stored, if_neg other, if_neg notLegacy]
        exact ⟨_, rfl⟩

variable {rows : List AppliedMigration}

theorem verifyRows_of_tampered (mem : row ∈ rows) (tampered : Tampered sha256 migrations row) :
    ∃ message, (verifyRows sha256 migrations rows).2 = .error message := by
  induction rows with
  | nil => cases mem
  | cons first rest ih =>
    rw [verifyRows]
    rcases List.mem_cons.mp mem with rfl | later
    · obtain ⟨message, refused⟩ := verifyApplied_of_tampered tampered
      rw [refused]
      exact ⟨message, rfl⟩
    · split
      · exact ⟨_, rfl⟩
      · exact ih later

variable (versioned : migrations.map (·.version) = List.range' 1 migrations.length)

include versioned

/-- In a valid list a version names one migration, so a row that passes for one is not tampered
with. -/
theorem verifyApplied_of_untampered (untampered : ¬Tampered sha256 migrations row) :
    ∃ verified, verifyApplied sha256 migrations row = .ok verified := by
  simp only [Tampered, not_forall, not_or, not_not] at untampered
  obtain ⟨migration, mem, same, named, stored⟩ := untampered
  have found : (migrations.find? fun m => m.version = row.version) = some migration := by
    have isSome : (migrations.find? fun m => m.version = row.version).isSome = true :=
      List.find?_isSome.mpr ⟨migration, mem, decide_eq_true same⟩
    obtain ⟨other, found⟩ := Option.isSome_iff_exists.mp isSome
    have version : other.version = row.version := by simpa using List.find?_some found
    have distinct : (migrations.map (·.version)).Nodup := versioned ▸ List.nodup_range'
    rw [found, List.inj_on_of_nodup_map distinct (List.mem_of_find?_eq_some found) mem
      (version.trans same.symm)]
  simp only [verifyApplied, found]
  rw [if_neg (not_not.mpr named)]
  cases checked : row.checksum with
  | none => exact ⟨_, rfl⟩
  | some checksum =>
    simp only
    split
    · exact ⟨_, rfl⟩
    · rename_i other
      split
      · exact ⟨_, rfl⟩
      · rename_i notLegacy
        exact absurd ⟨checksum, checked, other, notLegacy⟩ stored

theorem verifyRows_of_untampered (untampered : ∀ row ∈ rows, ¬Tampered sha256 migrations row) :
    (verifyRows sha256 migrations rows).2 = .ok () := by
  induction rows with
  | nil => rfl
  | cons first rest ih =>
    obtain ⟨here, later⟩ := List.forall_mem_cons.mp untampered
    obtain ⟨verified, passes⟩ := verifyApplied_of_untampered versioned here
    rw [verifyRows, passes]
    exact ih later

omit versioned

theorem throws_of_tampered (valid : assertMigrationsAreValid migrations = .ok ()) {s : State σ}
    (call : Call σ) (mem : row ∈ s.db.schemaVersion.rows)
    (tampered : Tampered sha256 migrations row) :
    (∃ message, (runMigrations sha256 migrations call s).1 = .error message) ∧
      (runMigrations sha256 migrations call s).2.ran = s.ran ∧
      (runMigrations sha256 migrations call s).2.db.data = s.db.data ∧
      (runMigrations sha256 migrations call s).2.db.schemaVersion.versions =
        s.db.schemaVersion.versions := by
  obtain ⟨message, refused⟩ := verifyRows_of_tampered mem tampered
  rw [runMigrations_refused valid refused]
  exact ⟨⟨message, rfl⟩, rfl, rfl, versions_verifyRows sha256 migrations _⟩

end Tampering

/-! ### Every run -/

variable (migrations : List (Migration σ)) (initial : σ)

/-- The applied versions are the first `k`, and the data is what these have made of it. -/
structure AppliedUpTo (k : Nat) (db : Database σ) : Prop where
  within : k ≤ migrations.length
  versions : db.schemaVersion.versions = List.range' 1 k
  data : applyAll (migrations.take k) initial = .ok db.data

structure Reached (s : State σ) : Prop where
  applied : ∃ k, AppliedUpTo migrations initial k s.db
  recorded : ∀ c ∈ s.ran, c.committed = true → c.version ∈ s.db.schemaVersion.versions
  once : s.ran.Pairwise fun earlier later => earlier.committed = true → later.version ≠ earlier.version

section Runs

variable {sha256 : String → List UInt8} {migrations : List (Migration σ)} {initial : σ}

variable (migrations initial) in
theorem reached_fresh : Reached migrations initial (.fresh initial) where
  applied := ⟨0, Nat.zero_le _, rfl, rfl⟩
  recorded := fun _ mem => absurd mem List.not_mem_nil
  once := List.Pairwise.nil

variable {s : State σ} (reached : Reached migrations initial s)

include reached

/-- What is stored about a migration says nothing of what was applied. -/
theorem Reached.of_versions {schemaVersion : SchemaVersion}
    (versions : schemaVersion.versions = s.db.schemaVersion.versions) :
    Reached migrations initial { s with db := { s.db with schemaVersion } } := by
  obtain ⟨k, applied⟩ := reached.applied
  exact ⟨⟨k, applied.within, versions.trans applied.versions, applied.data⟩,
    fun c mem committed => versions ▸ reached.recorded c mem committed, reached.once⟩

/-- The calls of `up` that a call adds to the log, of versions from `k + 1` on, are those of
migrations that had not been applied. -/
theorem Reached.once_of_progress {call : Call σ} {pending : List (Migration σ)} {k j : Nat}
    {after : State σ} {result : Except String Unit}
    (progress : Progress sha256 call pending k s j result after)
    (versions : s.db.schemaVersion.versions = List.range' 1 k) :
    (∀ c ∈ after.ran, c.committed = true → c.version ∈ after.db.schemaVersion.versions) ∧
      after.ran.Pairwise fun earlier later => earlier.committed = true → later.version ≠ earlier.version := by
  obtain ⟨last, log, ends⟩ := progress.ran
  -- What each part of the log says about its versions.
  have old : ∀ c ∈ s.ran, c.committed = true → 1 ≤ c.version ∧ c.version ≤ k := by
    intro c mem committed
    have listed := reached.recorded c mem committed
    rw [versions, List.mem_range'_1] at listed
    omega
  have new : ∀ c ∈ (List.range' (k + 1) j).map (fun v => (⟨v, true⟩ : UpCall)),
      k + 1 ≤ c.version ∧ c.version ≤ k + j := by
    intro c mem
    obtain ⟨v, listed, rfl⟩ := List.mem_map.mp mem
    rw [List.mem_range'_1] at listed
    exact ⟨listed.1, Nat.le_of_lt_succ (by omega : v < k + j + 1)⟩
  have final : ∀ c ∈ last, c.version = k + j + 1 ∧ c.committed = false := by
    intro c mem
    rcases ends with rfl | rfl
    · cases mem
    · rw [List.mem_singleton.mp mem]
      exact ⟨rfl, rfl⟩
  rw [progress.versions, log]
  constructor
  · intro c mem committed
    rw [List.mem_range'_1]
    rcases List.mem_append.mp mem with earlier | stopped
    · rcases List.mem_append.mp earlier with before | added
      · have := old c before committed
        omega
      · have := new c added
        omega
    · rw [(final c stopped).2] at committed
      cases committed
  · refine List.pairwise_append.mpr ⟨List.pairwise_append.mpr ⟨reached.once, ?_, ?_⟩, ?_, ?_⟩
    · have increasing : (List.range' (k + 1) j).Pairwise (· < ·) := List.pairwise_lt_range' _
      refine List.pairwise_map.mpr (increasing.imp ?_)
      intro v w less _
      exact Nat.ne_of_gt less
    · intro c before d added committed
      have := old c before committed
      have := new d added
      omega
    · rcases ends with rfl | rfl
      · exact List.Pairwise.nil
      · exact List.pairwise_singleton _ _
    · intro c earlier d stopped committed
      have := (final d stopped).1
      rcases List.mem_append.mp earlier with before | added
      · have := old c before committed
        omega
      · have := new c added
        omega

theorem Reached.rewrite (edit : AppliedMigration → String × Option String) :
    Reached migrations initial
      { s with db := { s.db with schemaVersion := s.db.schemaVersion.rewrite edit } } := by
  apply reached.of_versions
  simp only [SchemaVersion.versions, SchemaVersion.rewrite, List.map_map]
  rfl

variable (valid : assertMigrationsAreValid migrations = .ok ())

include valid

theorem Reached.call (call : Call σ) :
    Reached migrations initial (runMigrations sha256 migrations call s).2 := by
  obtain ⟨k, applied⟩ := reached.applied
  have versions : (s.verified sha256 migrations).db.schemaVersion.versions = _ := versions_verified migrations s
  have checked : Reached migrations initial (s.verified sha256 migrations) := reached.of_versions versions
  cases verified : (verifyRows sha256 migrations s.db.schemaVersion.rows).2 with
  | error message => rwa [runMigrations_refused valid verified]
  | ok _ =>
    obtain ⟨j, progress⟩ := runMigrations_progress call valid applied.versions verified
    obtain ⟨recorded, once⟩ := checked.once_of_progress progress (versions.trans applied.versions)
    refine ⟨⟨k + j, ?_, progress.versions, ?_⟩, recorded, once⟩
    · have := progress.within
      have := applied.within
      rw [List.length_drop] at *
      omega
    · rw [List.take_add, applyAll_append, applied.data]
      exact progress.data

omit reached

theorem reached_run (initial : σ) (events : List (Event σ)) :
    Reached migrations initial (run (step sha256 migrations) (.fresh initial) events) := by
  refine run_invariant (fun s event reached => ?_) (reached_fresh migrations initial) events
  cases event with
  | call call => exact reached.call valid call
  | rewrite edit => exact reached.rewrite edit

theorem finishes_of_untampered
    (reached : Reached migrations initial s) {call : Call σ} (faultless : ∀ v, call.fault v = none)
    {final : σ} (applies : applyAll migrations initial = .ok final)
    (untampered : ∀ row ∈ s.db.schemaVersion.rows, ¬Tampered sha256 migrations row) :
    (runMigrations sha256 migrations call s).1 = .ok () ∧
      (runMigrations sha256 migrations call s).2.db.schemaVersion.versions =
        List.range' 1 migrations.length ∧
      (runMigrations sha256 migrations call s).2.db.data = final := by
  obtain ⟨k, applied⟩ := reached.applied
  have verified := verifyRows_of_untampered (versions_of_valid valid) untampered
  obtain ⟨j, progress⟩ := runMigrations_progress call valid applied.versions verified
  have rest : applyAll (migrations.drop k) s.db.data = .ok final := by
    rw [← List.take_append_drop k migrations, applyAll_append, applied.data] at applies
    exact applies
  have ok := progress.finishes faultless rest
  refine ⟨ok, ?_, ?_⟩
  · rw [progress.versions, progress.finished ok, List.length_drop, Nat.add_sub_cancel' applied.within]
  · exact Except.ok.inj ((progress.applies ok).symm.trans rest)

end Runs

/-- For every valid list of migrations and every run of calls, in which any `up` may throw and
between which the stored names and checksums may change: the applied versions are a prefix of the
list, the data is that of exactly these migrations in their order, and none is run again once it
was applied. From every state reached, a call throws before it runs anything if some row matches
no fingerprint, and finishes the list if none is so and nothing throws. -/
theorem migrations_resume (sha256 : String → List UInt8) (migrations : List (Migration σ))
    (valid : assertMigrationsAreValid migrations = .ok ()) (initial : σ) (events : List (Event σ)) :
    let s := run (step sha256 migrations) (.fresh initial) events
    (∃ k ≤ migrations.length, s.db.schemaVersion.versions = List.range' 1 k ∧
        applyAll (migrations.take k) initial = .ok s.db.data) ∧
      (s.ran.Pairwise fun earlier later =>
        earlier.committed = true → later.version ≠ earlier.version) ∧
      (∀ (call : Call σ) (row : AppliedMigration), row ∈ s.db.schemaVersion.rows →
        Tampered sha256 migrations row →
        (∃ message, (runMigrations sha256 migrations call s).1 = .error message) ∧
          (runMigrations sha256 migrations call s).2.ran = s.ran ∧
          (runMigrations sha256 migrations call s).2.db.data = s.db.data ∧
          (runMigrations sha256 migrations call s).2.db.schemaVersion.versions =
            s.db.schemaVersion.versions) ∧
      ∀ (call : Call σ) (final : σ), (∀ v, call.fault v = none) →
        applyAll migrations initial = .ok final →
        (∀ row ∈ s.db.schemaVersion.rows, ¬Tampered sha256 migrations row) →
        (runMigrations sha256 migrations call s).1 = .ok () ∧
          (runMigrations sha256 migrations call s).2.db.schemaVersion.versions =
            List.range' 1 migrations.length ∧
          (runMigrations sha256 migrations call s).2.db.data = final := by
  intro s
  have reached : Reached migrations initial s := reached_run valid initial events
  obtain ⟨k, applied⟩ := reached.applied
  refine ⟨⟨k, applied.within, applied.versions, applied.data⟩, reached.once, ?_, ?_⟩
  · intro call row mem tampered
    exact throws_of_tampered valid call mem tampered
  · intro call final faultless applies untampered
    exact finishes_of_untampered valid reached faultless applies untampered

def noteMigrations : List (Migration (List Nat)) :=
  [⟨1, "first", none, "db => note(1)", fun notes => .ok (notes ++ [1])⟩,
    ⟨2, "second", some "note", "db => note(2)", fun notes => .ok (notes ++ [2])⟩]

/-- The second `up` throws when it has written half of what it should; the checksum of the first
is lost; and the next call takes up where the first one has stopped. -/
theorem migrations_resume_after_failure :
    let failing : Call (List Nat) :=
      ⟨fun v => if v = 2 then some ("disk full", (· ++ [0])) else none, fun _ => "now"⟩
    let working : Call (List Nat) := ⟨fun _ => none, fun _ => "later"⟩
    let events : List (Event (List Nat)) :=
      [.call failing, .rewrite fun row => (row.name, none), .call working]
    let s := run (step utf8Bytes noteMigrations) (.fresh []) events
    (∃ k ≤ noteMigrations.length, s.db.schemaVersion.versions = List.range' 1 k ∧
        applyAll (noteMigrations.take k) [] = .ok s.db.data) ∧
      s.db.data = [1, 2] ∧ s.ran = [⟨1, true⟩, ⟨2, false⟩, ⟨2, true⟩] := by
  intro failing working events
  exact ⟨(migrations_resume utf8Bytes noteMigrations rfl [] events).1, by decide +kernel,
    by decide +kernel⟩

end TalentTrust.Db
