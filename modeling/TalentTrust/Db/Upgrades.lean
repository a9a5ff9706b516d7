import TalentTrust.Db.Schema

/-!
What the migrations make of a database that is in use.

A database is made by the first `k` migrations and filled with any rows that its tables accept.
Then the others are applied. Every row stays as it was in the columns that it had, in every table
(`Grown`), if the call succeeds; and it succeeds unless one of two migrations fails on the rows
(`upgrade_iff`):

* version 7 drops `users`, which fails as soon as there is a contract, since every contract
  references its client;
* version 11 creates a unique index, which fails if two users have the same normalized email.

`Body.Ready` is the condition of each migration, over the rows from before the upgrade.
-/

namespace TalentTrust.Db

open TalentTrust.Lib TalentTrust.Lib.Sqlite

/-! ### The migrations that depend on the rows -/

section Bodies

variable {coercion : Coercion} {db : Tables} {t : Table}

theorem widens_users : usersTable.Widens usersTable where
  names := List.Subset.refl _
  columns := fun _ => .inl
  checks := by decide
  uniques := by decide

theorem widens_auth : usersTable.Widens usersTableWithAuth where
  names := by decide
  columns := by decide
  checks := by decide
  uniques := by decide

theorem lacks_auth (users : (catalog db).get? "users" = some usersTable) :
    hasColumn (catalog db) "users" "password_hash" = false := by
  rw [hasColumn, columnsOf_of_get? users]
  decide

variable (found : db.get? "users" = some t) (old : t.schema = usersTable)

include found old

variable (coercion) in
/-- The users are saved and restored if none of them is referenced. -/
theorem addAuthColumns_of_unreferenced
    (meets : usersTable.Meets t.rows) (free : referenced db "users" t = false) :
    ∃ db', addAuthColumns coercion db = .ok db' ∧
      catalog db' = ((catalog db).erase "users").set "users" usersTableWithAuth ∧ Grown db db' := by
  have users : (catalog db).get? "users" = some usersTable := old ▸ schema_of_get? found
  have selected : selectAll "users" db = .ok (t.rows.map usersTable.read) := by
    rw [selectAll, found, ← old]
  have dropped : dropTable "users" db = .ok (db.erase "users") := by
    rw [dropTable, found]
    simp [free]
  have created : createTable false "users" usersTableWithAuth (db.erase "users") =
      .ok ((db.erase "users").set "users" ⟨usersTableWithAuth, []⟩) := by
    rw [createTable, OrderedMap.get?_erase]
    rfl
  obtain ⟨inserted, agree⟩ := widens_auth.insertAll_read rfl coercion meets
    (OrderedMap.get?_set_self (db.erase "users") "users" ⟨usersTableWithAuth, []⟩)
  rw [OrderedMap.set_set] at inserted
  refine ⟨(db.erase "users").set "users" ⟨usersTableWithAuth, t.rows.map usersTable.read⟩, ?_, ?_,
    .replace ?_ ?_⟩
  · simp [addAuthColumns, lacks_auth users, selected, bind, Except.bind, dropped, created, inserted]
  · rw [catalog_set, catalog_erase]
  · rw [columnsOf_of_get? users]
    exact widens_auth.names
  · rw [columnsOf_of_get? users, rowsOf_of_get? found]
    exact agree

/-- If one of them is referenced, the table cannot be dropped. -/
theorem addAuthColumns_of_referenced (taken : referenced db "users" t = true) :
    addAuthColumns coercion db = .error ("FOREIGN KEY constraint failed", db) := by
  have users : (catalog db).get? "users" = some usersTable := old ▸ schema_of_get? found
  simp only [addAuthColumns, lacks_auth users, Bool.not_false, Bool.true_or, if_true, selectAll, found,
    dropTable, taken, fail]
  rfl

omit found old

/-- The rows of `users` have distinct normalized emails. -/
def DistinctEmails (db : Tables) : Prop :=
  (rowsOf db "users").Pairwise fun r r' => normalizedEmail.clash r r' = false

instance (db : Tables) : Decidable (DistinctEmails db) := inferInstanceAs (Decidable (List.Pairwise _ _))

theorem createEmailIndex (found : db.get? "users" = some t) (new : t.schema = usersTableWithAuth)
    (absent : hasIndex (catalog db) emailIndex.name = false) :
    createIndex "users" emailIndex db =
      if DistinctEmails db then .ok (db.set "users" { t with schema := t.schema.withIndex emailIndex })
      else .error ("UNIQUE constraint failed: index 'idx_users_email_normalized'", db) := by
  have known : (emailIndex.key.names.all (· ∈ t.schema.names)) = true := by
    rw [new]
    decide
  have duplicates : t.duplicates emailIndex.key ↔ ¬DistinctEmails db := by
    rw [DistinctEmails, rowsOf_of_get? found]
    rfl
  simp only [createIndex, absent, Bool.false_eq_true, if_false, found, known, not_true_eq_false,
    duplicates]
  by_cases distinct : DistinctEmails db
  · simp [distinct]
  · simp only [distinct, not_false_eq_true, and_true, if_false]
    rfl

end Bodies

/-! ### The catalogs -/

section Catalogs

theorem onCatalog_catalogAt {j : Nat} {definition : Definition} (listed : definitions[j]? = some definition) :
    definition.body.onCatalog (catalogAt j) = some (catalogAt (j + 1)) := by
  have all : ∀ j < 13, ∀ definition ∈ definitions[j]?,
      (definition.body.onCatalog (catalogAt j)).isSome = true := by decide +kernel
  obtain ⟨below, _⟩ := List.getElem?_eq_some_iff.mp listed
  obtain ⟨c, eq⟩ := Option.isSome_iff_exists.mp (all j below definition listed)
  have next : catalogAt (j + 1) = (definition.body.onCatalog (catalogAt j)).getD (catalogAt j) := by
    rw [catalogAt, List.take_add_one, listed, List.foldl_append]
    rfl
  rw [next, eq, Option.getD_some]

variable {k : Nat}

/-- Until version 6 a contract has a client, and a reputation entry has a contract. -/
theorem required_references (early : k ≤ 6) :
    (∀ schema ∈ (catalogAt k).get? "contracts", requiredText "client_id" ∈ schema.columns ∧
        ⟨"client_id", "users", "id"⟩ ∈ schema.references) ∧
      ∀ schema ∈ (catalogAt k).get? "reputation_entries", requiredText "context_id" ∈ schema.columns ∧
        ⟨"context_id", "contracts", "id"⟩ ∈ schema.references := by
  have all : ∀ k < 7,
      (∀ schema ∈ (catalogAt k).get? "contracts", requiredText "client_id" ∈ schema.columns ∧
          ⟨"client_id", "users", "id"⟩ ∈ schema.references) ∧
        ∀ schema ∈ (catalogAt k).get? "reputation_entries",
          requiredText "context_id" ∈ schema.columns ∧
            ⟨"context_id", "contracts", "id"⟩ ∈ schema.references := by decide +kernel
  exact all k (Nat.lt_succ_of_le early)

theorem references_users {j : Nat} (early : j ≤ 6) {e : String × TableSchema}
    (mem : e ∈ (catalogAt j).entries) {reference : Reference} (listed : reference ∈ e.2.references)
    (users : reference.parent = "users") : e.1 = "contracts" ∨ e.1 = "reputation_entries" := by
  have all : ∀ j < 7, ∀ e ∈ (catalogAt j).entries, ∀ reference ∈ e.2.references,
      reference.parent = "users" → e.1 = "contracts" ∨ e.1 = "reputation_entries" := by decide +kernel
  exact all j (Nat.lt_succ_of_le early) e mem reference listed users

def usersAt (k : Nat) : TableSchema :=
  if k ≤ 6 then usersTable
  else if k ≤ 10 then usersTableWithAuth
  else usersTableWithAuth.withIndex emailIndex

variable {schema : TableSchema}

theorem users_at (known : k ≤ 13)
    (users : (catalogAt k).get? "users" = some schema) : schema = usersAt k := by
  have all : ∀ k < 14, ∀ schema ∈ (catalogAt k).get? "users", schema = usersAt k := by decide +kernel
  exact all k (Nat.lt_succ_of_le known) schema users

theorem users_of_early (early : k ≤ 6)
    (users : (catalogAt k).get? "users" = some schema) : schema = usersTable := by
  rw [users_at (early.trans (by decide)) users, usersAt, if_pos early]

theorem early_of_usersTable {j : Nat} (known : j ≤ 13)
    (users : (catalogAt j).get? "users" = some usersTable) : j ≤ 6 := by
  have same : usersTable = usersAt j := users_at known users
  by_contra late
  rw [usersAt, if_neg late] at same
  split at same
  · exact absurd same (by decide)
  · exact absurd same (by decide)

theorem users_have_emails (known : k ≤ 13)
    (users : (catalogAt k).get? "users" = some schema) : "email" ∈ schema.names := by
  rw [users_at known users, usersAt]
  split
  · decide
  · split
    · decide
    · decide

end Catalogs

/-! ### Databases in use -/

/-- A database of version `k`, with any rows that it accepts. -/
structure Filled (k : Nat) (db : Tables) : Prop where
  known : k ≤ 13
  catalog : Sqlite.catalog db = catalogAt k
  accepted : Accepted db

structure Upgraded (filled : Tables) (j : Nat) (db : Tables) : Prop where
  catalog : Sqlite.catalog db = catalogAt j
  grown : Grown filled db

section Use

variable {k j : Nat} {filled db : Tables} {t : Table} {row : Row} (use : Filled k filled)

include use

theorem Filled.exists_parent {name column parent : String}
    (found : filled.get? name = some t) (mem : row ∈ t.rows)
    (required : requiredText column ∈ t.schema.columns)
    (reference : ⟨column, parent, "id"⟩ ∈ t.schema.references) :
    ∃ target ∈ rowsOf filled parent, (row column).same (target "id") = true := by
  have accepts := use.accepted name t found
  have present : row column ≠ .null := accepts.meets.notNull row mem _ required rfl
  have met := accepts.references row mem _ reference
  simpa [Reference.met, present] using met

theorem Filled.schema {name : String} (found : filled.get? name = some t) :
    (catalogAt k).get? name = some t.schema :=
  use.catalog ▸ schema_of_get? found

theorem Filled.exists_client (early : k ≤ 6) (mem : row ∈ rowsOf filled "contracts") :
    "client_id" ∈ columnsOf (Sqlite.catalog filled) "contracts" ∧
      ∃ user ∈ rowsOf filled "users", (row "client_id").same (user "id") = true := by
  obtain ⟨t, found, mem⟩ := exists_of_mem_rowsOf mem
  obtain ⟨required, reference⟩ := (required_references early).1 t.schema (use.schema found)
  refine ⟨?_, use.exists_parent found mem required reference⟩
  rw [use.catalog, columnsOf_of_get? (use.schema found)]
  exact TableSchema.mem_names required

theorem Filled.exists_contract (early : k ≤ 6)
    (mem : row ∈ rowsOf filled "reputation_entries") : rowsOf filled "contracts" ≠ [] := by
  obtain ⟨t, found, mem⟩ := exists_of_mem_rowsOf mem
  obtain ⟨required, reference⟩ := (required_references early).2 t.schema (use.schema found)
  obtain ⟨contract, mem, _⟩ := use.exists_parent found mem required reference
  exact List.ne_nil_of_mem mem

/-- Some user is referenced as soon as there is a contract, and not before. -/
theorem referenced_iff (upgraded : Upgraded filled j db) (le : k ≤ j)
    (early : j ≤ 6) (found : db.get? "users" = some t) :
    referenced db "users" t = true ↔ rowsOf filled "contracts" ≠ [] := by
  constructor
  · intro taken
    simp only [referenced, List.any_eq_true, Bool.and_eq_true, decide_eq_true_eq] at taken
    obtain ⟨child, mem, _, reference, listed, users, row, stored, _⟩ := taken
    have entry : (child.1, child.2.schema) ∈ (catalogAt j).entries := by
      rw [← upgraded.catalog]
      exact List.mem_map_of_mem mem
    have held : row ∈ rowsOf db child.1 := by
      rwa [rowsOf_of_get? (OrderedMap.get?_eq_some_iff.mpr mem)]
    obtain ⟨row₀, held₀, _⟩ := (upgraded.grown.rows child.1).exists_left held
    rcases references_users early entry listed users with contracts | reputation
    · rw [contracts] at held₀
      exact List.ne_nil_of_mem held₀
    · rw [reputation] at held₀
      exact use.exists_contract (le.trans early) held₀
  · intro some
    obtain ⟨contract₀, mem₀⟩ := List.exists_mem_of_ne_nil _ some
    obtain ⟨column, user₀, user_mem₀, same⟩ := use.exists_client (le.trans early) mem₀
    -- The contract and its client are still there, with these columns unchanged.
    obtain ⟨contract, mem, kept⟩ := (upgraded.grown.rows "contracts").exists_right mem₀
    obtain ⟨user, user_mem, user_kept⟩ := (upgraded.grown.rows "users").exists_right user_mem₀
    obtain ⟨child, child_found, stored⟩ := exists_of_mem_rowsOf mem
    obtain ⟨users₀, users_found, _⟩ := exists_of_mem_rowsOf user_mem₀
    have child_schema : (catalogAt j).get? "contracts" = Option.some child.schema :=
      upgraded.catalog ▸ schema_of_get? child_found
    have id : "id" ∈ columnsOf (catalog filled) "users" := by
      rw [use.catalog, columnsOf_of_get? (use.schema users_found),
        users_of_early (le.trans early) (use.schema users_found)]
      decide
    rw [rowsOf_of_get? found] at user_mem
    simp only [referenced, List.any_eq_true, Bool.and_eq_true, decide_eq_true_eq]
    refine ⟨("contracts", child), OrderedMap.get?_eq_some_iff.mp child_found, by simp, _,
      ((required_references early).1 _ child_schema).2, rfl, contract, stored, user, user_mem, ?_⟩
    rwa [kept _ column, user_kept _ id]

theorem distinctEmails_iff (upgraded : Upgraded filled j db) :
    DistinctEmails db ↔ DistinctEmails filled := by
  have agree := upgraded.grown.rows "users"
  cases found : filled.get? "users" with
  | none =>
    have empty : rowsOf filled "users" = [] := by rw [rowsOf, found]; rfl
    have empty' : rowsOf db "users" = [] := agree.nil_iff.mpr empty
    rw [DistinctEmails, DistinctEmails, empty, empty']
  | some t =>
    have email : normalizedEmail.names ⊆ columnsOf (catalog filled) "users" := by
      rw [use.catalog, columnsOf_of_get? (use.schema found)]
      intro name mem
      rw [List.mem_singleton.mp mem]
      exact users_have_emails use.known (use.schema found)
    exact ⟨agree.symm.distinct email, agree.distinct email⟩

omit use

/-! ### One migration -/

/-- The rows with which an `up` succeeds. -/
def Body.Ready : Body → Tables → Prop
  | .statements _, _ => True
  | .addAuthColumns, filled => rowsOf filled "contracts" = []
  | .addNormalizedEmailUniqueIndex, filled => DistinctEmails filled

theorem meets_users (use : Filled k filled) (upgraded : Upgraded filled j db) (early : k ≤ 6)
    (found : db.get? "users" = some t) : usersTable.Meets t.rows := by
  have agree := upgraded.grown.rows "users"
  rw [rowsOf_of_get? found] at agree
  cases found₀ : filled.get? "users" with
  | none =>
    have empty : t.rows = [] := agree.nil_iff.mpr (by rw [rowsOf, found₀]; rfl)
    rw [empty]
    exact usersTable.meets_nil
  | some t₀ =>
    have schema := users_of_early early (use.schema found₀)
    have meets := (use.accepted "users" t₀ found₀).meets
    rw [rowsOf_of_get? found₀, use.catalog, columnsOf_of_get? (use.schema found₀), schema] at agree
    rw [schema] at meets
    exact widens_users.meets agree (fun _ _ _ listed unlisted => absurd listed unlisted) meets

/-- A migration succeeds and keeps all rows, or fails, as its condition says. -/
theorem up_cases (coercion : Coercion) (use : Filled k filled) (upgraded : Upgraded filled j db)
    (le : k ≤ j) {definition : Definition} (listed : definitions[j]? = some definition) :
    (definition.body.Ready filled ∧
        ∃ db', definition.body.up coercion db = .ok db' ∧ Upgraded filled (j + 1) db') ∨
      ¬definition.body.Ready filled ∧ ∃ thrown, definition.body.up coercion db = .error thrown := by
  have next := onCatalog_catalogAt listed
  obtain ⟨below, _⟩ := List.getElem?_eq_some_iff.mp listed
  rw [← upgraded.catalog] at next
  cases body : definition.body with
  | statements ddl =>
    rw [body] at next
    obtain ⟨db', executed, eq, grown⟩ := execAll_of_onCatalog next
    exact .inl ⟨trivial, db', executed, eq, upgraded.grown.trans grown⟩
  | addAuthColumns =>
    rw [body, Body.onCatalog] at next
    split at next
    · rename_i users
      obtain ⟨t, found, old⟩ := exists_table users
      have early : j ≤ 6 := early_of_usersTable (Nat.le_of_lt below) (upgraded.catalog ▸ users)
      have taken := referenced_iff use upgraded le early found
      by_cases contracts : rowsOf filled "contracts" = []
      · have free : referenced db "users" t = false := by
          rw [← Bool.not_eq_true, taken]
          exact not_not.mpr contracts
        obtain ⟨db', restored, eq, grown⟩ := addAuthColumns_of_unreferenced coercion
          found old (meets_users use upgraded (le.trans early) found) free
        exact .inl ⟨contracts, db', restored, eq.trans (Option.some.inj next), upgraded.grown.trans grown⟩
      · exact .inr ⟨contracts, _, addAuthColumns_of_referenced found old (taken.mpr contracts)⟩
    · cases next
  | addNormalizedEmailUniqueIndex =>
    rw [body, Body.onCatalog] at next
    split at next
    · rename_i conditions
      obtain ⟨users, absent⟩ := conditions
      obtain ⟨t, found, new⟩ := exists_table users
      have created := createEmailIndex found new absent
      by_cases distinct : DistinctEmails filled
      · rw [if_pos ((distinctEmails_iff use upgraded).mpr distinct)] at created
        refine .inl ⟨distinct, _, created, ?_, upgraded.grown.trans (.set ?_ ?_)⟩
        · rw [catalog_set, new]
          exact Option.some.inj next
        · rw [columnsOf_of_get? users, new]
          exact List.Subset.refl _
        · rw [rowsOf_of_get? found]
          exact .refl _ _
      · rw [if_neg fun later => distinct ((distinctEmails_iff use upgraded).mp later)] at created
        exact .inr ⟨distinct, _, created⟩
    · cases next

end Use

/-! ### The list of migrations -/

section Upgrade

variable (coercion : Coercion) (upText : Nat → String) {k : Nat} {filled : Tables}

theorem applyAll_cases (use : Filled k filled) {n : Nat} (known : k + n ≤ 13) :
    ((∀ definition ∈ (definitions.drop k).take n, definition.body.Ready filled) ∧
        ∃ db', applyAll (((migrations coercion upText).drop k).take n) filled = .ok db' ∧
          Upgraded filled (k + n) db') ∨
      (¬∀ definition ∈ (definitions.drop k).take n, definition.body.Ready filled) ∧
        ∃ thrown, applyAll (((migrations coercion upText).drop k).take n) filled = .error thrown := by
  induction n with
  | zero => exact .inl ⟨nofun, filled, rfl, use.catalog, .refl filled⟩
  | succ n ih =>
    have below : k + n < definitions.length := known
    have listed : definitions[k + n]? = some definitions[k + n] := List.getElem?_eq_getElem below
    have last : (definitions.drop k).take (n + 1) =
        (definitions.drop k).take n ++ [definitions[k + n]] := by
      rw [List.take_add_one, List.getElem?_drop, listed]
      rfl
    have last' : ((migrations coercion upText).drop k).take (n + 1) =
        ((migrations coercion upText).drop k).take n ++
          [definitions[k + n].migration coercion upText] := by
      rw [migrations, ← List.map_drop, ← List.map_take, last, List.map_append, List.map_take]
      rfl
    rw [last, last', applyAll_append, List.forall_mem_append]
    rcases ih (by omega) with ⟨ready, db, applied, upgraded⟩ | ⟨unready, thrown, failed⟩
    · have own : applyAll [definitions[k + n].migration coercion upText] db =
          definitions[k + n].body.up coercion db := by
        change Except.bind (definitions[k + n].body.up coercion db) Except.ok = _
        cases definitions[k + n].body.up coercion db <;> rfl
      rw [applied]
      change _ ∧ (∃ db', applyAll [_] db = .ok db' ∧ _) ∨ _ ∧ ∃ thrown, applyAll [_] db = .error thrown
      rw [own, List.forall_mem_singleton]
      rcases up_cases coercion use upgraded (Nat.le_add_right k n) listed with
        ⟨here, done⟩ | ⟨stuck, failed⟩
      · exact .inl ⟨⟨ready, here⟩, done⟩
      · exact .inr ⟨fun both => stuck both.2, failed⟩
    · rw [failed]
      exact .inr ⟨fun both => unready both.1, thrown, rfl⟩

theorem ready_iff (known : k ≤ 13) :
    (∀ definition ∈ definitions.drop k, definition.body.Ready filled) ↔
      (7 ≤ k ∨ rowsOf filled "contracts" = []) ∧ (11 ≤ k ∨ DistinctEmails filled) := by
  interval_cases k <;> simp [definitions, Body.Ready]

theorem length_migrations : (migrations coercion upText).length = 13 := List.length_map _

theorem migrations_valid : assertMigrationsAreValid (migrations coercion upText) = .ok () := rfl

theorem pending_cases (use : Filled k filled) :
    ((7 ≤ k ∨ rowsOf filled "contracts" = []) ∧ (11 ≤ k ∨ DistinctEmails filled) ∧
        ∃ db', applyAll ((migrations coercion upText).drop k) filled = .ok db' ∧ Grown filled db') ∨
      ¬((7 ≤ k ∨ rowsOf filled "contracts" = []) ∧ (11 ≤ k ∨ DistinctEmails filled)) ∧
        ∃ thrown, applyAll ((migrations coercion upText).drop k) filled = .error thrown := by
  have known := use.known
  have all : (definitions.drop k).take (13 - k) = definitions.drop k :=
    List.take_of_length_le (by rw [List.length_drop]; rfl)
  have all' : ((migrations coercion upText).drop k).take (13 - k) = (migrations coercion upText).drop k :=
    List.take_of_length_le (by rw [List.length_drop, length_migrations])
  have cases := applyAll_cases coercion upText use (n := 13 - k) (by omega)
  rw [all, all', ready_iff known] at cases
  rcases cases with ⟨ready, db', applied, upgraded⟩ | failed
  · exact .inl ⟨ready.1, ready.2, db', applied, upgraded.grown⟩
  · exact .inr failed

theorem applyAll_empty (known : k ≤ 13) :
    ∃ db, applyAll ((migrations coercion upText).take k) .empty = .ok db ∧ catalog db = catalogAt k := by
  have use : Filled 0 .empty := ⟨Nat.zero_le _, rfl, nofun⟩
  rcases applyAll_cases coercion upText use (n := k) (by omega) with
    ⟨_, db, applied, upgraded⟩ | ⟨unready, _⟩
  · rw [Nat.zero_add] at upgraded
    exact ⟨db, applied, upgraded.catalog⟩
  · refine absurd (fun definition _ => ?_) unready
    cases definition.body with
    | statements _ => trivial
    | addAuthColumns => rfl
    | addNormalizedEmailUniqueIndex => exact .nil

end Upgrade

/-! ### Calls of `runMigrations` -/

section Calls

variable (sha256 : String → List UInt8) (coercion : Coercion) (upText : Nat → String)

/-- A call in which nothing fails but what the statements themselves do. -/
def faultless (now : Nat → String) : Call Tables := ⟨fun _ => none, now⟩

/-- The database that the first `k` migrations have made. -/
def produced (now : Nat → String) (k : Nat) : State Tables :=
  (runMigrations sha256 ((migrations coercion upText).take k) (faultless now) (.fresh .empty)).2

/-- A database with other rows in its tables. -/
def State.withData (s : State Tables) (filled : Tables) : State Tables :=
  { s with db := { s.db with data := filled } }

variable {sha256 coercion upText} {now : Nat → String} {k : Nat}

/-- What is produced has the catalog of its version, and the rows of `schema_version` that the
migrations have. -/
theorem produced_spec (known : k ≤ 13) :
    catalog (produced sha256 coercion upText now k).db.data = catalogAt k ∧
      (produced sha256 coercion upText now k).db.schemaVersion.versions = List.range' 1 k ∧
      (produced sha256 coercion upText now k).db.schemaVersion.rows =
        ((migrations coercion upText).take k).map (appliedRow sha256 (faultless now)) := by
  obtain ⟨db, applied, eq⟩ := applyAll_empty coercion upText known
  have length : ((migrations coercion upText).take k).length = k := by
    rw [List.length_take, length_migrations]
    omega
  have verified : (verifyRows sha256 ((migrations coercion upText).take k) []).2 = .ok () := rfl
  obtain ⟨j, progress⟩ := runMigrations_progress (faultless now)
    (valid_take (migrations_valid coercion upText) k) (s := .fresh .empty) (k := 0) rfl verified
  have ok := progress.finishes (fun _ => rfl) applied
  have all : j = k := (progress.finished ok).trans length
  have data := (progress.applies ok).symm.trans applied
  refine ⟨?_, ?_, ?_⟩
  · rw [produced, Except.ok.inj data, eq]
  · rw [produced, progress.versions, all, Nat.zero_add]
  · rw [produced, progress.rows, List.drop_zero, all, List.take_of_length_le (Nat.le_of_eq length)]
    rfl

theorem produced_untampered (known : k ≤ 13) {row : AppliedMigration}
    (mem : row ∈ (produced sha256 coercion upText now k).db.schemaVersion.rows) :
    ¬Tampered sha256 (migrations coercion upText) row := by
  rw [(produced_spec known).2.2] at mem
  obtain ⟨migration, listed, rfl⟩ := List.mem_map.mp mem
  intro tampered
  rcases tampered migration (List.mem_of_mem_take listed) rfl with renamed | ⟨checksum, stored, other, _⟩
  · exact renamed rfl
  · exact other (Option.some.inj stored).symm

/-- For every version and every database of that version, with any rows that its tables accept:
an upgrade succeeds, with every row of every table unchanged in the columns that it had, if and
only if there are no contracts or version 7 has been applied, and the normalized emails are
distinct or version 11 has been applied. -/
theorem upgrade_iff (sha256 : String → List UInt8) (coercion : Coercion) (upText : Nat → String)
    (now later : Nat → String) (k : Nat) (known : k ≤ getLatestSchemaVersion) (filled : Tables)
    (schema : catalog filled = catalog (produced sha256 coercion upText now k).db.data)
    (accepted : Accepted filled) :
    let call := runMigrations sha256 (migrations coercion upText) (faultless later)
      ((produced sha256 coercion upText now k).withData filled)
    (call.1 = .ok () ∧ Grown filled call.2.db.data) ↔
      (7 ≤ k ∨ rowsOf filled "contracts" = []) ∧ (11 ≤ k ∨ DistinctEmails filled) := by
  intro call
  have use : Filled k filled := ⟨known, schema.trans (produced_spec known).1, accepted⟩
  have valid := migrations_valid coercion upText
  have verified : (verifyRows sha256 (migrations coercion upText)
      (produced sha256 coercion upText now k).db.schemaVersion.rows).2 = .ok () :=
    verifyRows_of_untampered (versions_of_valid valid) fun row mem => produced_untampered known mem
  obtain ⟨j, progress⟩ := runMigrations_progress (faultless later) valid
    (s := (produced sha256 coercion upText now k).withData filled) (produced_spec known).2.1 verified
  rcases pending_cases coercion upText use with
    ⟨contracts, emails, db', applied, grown⟩ | ⟨unready, thrown, failed⟩
  · have ok : call.1 = .ok () := progress.finishes (fun _ => rfl) applied
    have data := Except.ok.inj ((progress.applies ok).symm.trans applied)
    refine ⟨fun _ => ⟨contracts, emails⟩, fun _ => ⟨ok, ?_⟩⟩
    rwa [data]
  · refine ⟨fun upgraded => ?_, fun ready => absurd ready unready⟩
    have applied := progress.applies upgraded.1
    have same : applyAll ((migrations coercion upText).drop k) filled = .ok _ := applied
    rw [failed] at same
    cases same

end Calls

/-! ### Two databases -/

section Databases

/-- A row that holds `NULL` in all other columns. -/
def record (fields : List (String × Value)) : Row := fun column => (fields.lookup column).getD .null

def userRow (id username email : String) : Row :=
  record [("id", .text id), ("username", .text username), ("email", .text email),
    ("role", .text "client"), ("created_at", .text "2024-01-01T00:00:00.000Z")]

def contractRow (id client freelancer : String) : Row :=
  record [("id", .text id), ("title", .text "Landing page"), ("client_id", .text client),
    ("freelancer_id", .text freelancer), ("amount", .integer 500), ("status", .text "draft"),
    ("created_at", .text "2024-01-02T00:00:00.000Z"), ("version", .integer 0)]

def plain : Coercion := ⟨fun _ value => value, fun _ _ _ => rfl⟩

def versionAt (k : Nat) : State Tables :=
  produced (fun _ => []) plain (fun _ => "") (fun _ => "2024-01-01") k

/-- The next start, on a database of version `k` in use. -/
def upgrade (k : Nat) (filled : Tables) : Except String Unit × State Tables :=
  runMigrations (fun _ => []) (migrations plain fun _ => "") (faultless fun _ => "2024-02-01")
    ((versionAt k).withData filled)

def aliceAndBob : List Row :=
  [userRow "u1" "alice" "alice@example.com", userRow "u2" "bob" "bob@example.com"]

def contracted : Tables :=
  withRows (withRows (versionAt 6).db.data "users" aliceAndBob) "contracts" [contractRow "c1" "u1" "u2"]

/-- A database of version 10 with an email in two spellings. -/
def respelled : Tables :=
  withRows (versionAt 10).db.data "users"
    [userRow "u1" "alice" "alice@example.com", userRow "u2" "alice2" "  Alice@Example.COM  "]

/-- Both are accepted, and the application does not start on them any more. -/
theorem upgrade_fails :
    (catalog contracted = catalog (versionAt 6).db.data ∧ Accepted contracted ∧
        (upgrade 6 contracted).1 = .error "FOREIGN KEY constraint failed") ∧
      catalog respelled = catalog (versionAt 10).db.data ∧ Accepted respelled ∧
        (upgrade 10 respelled).1 =
          .error "UNIQUE constraint failed: index 'idx_users_email_normalized'" := by
  refine ⟨⟨?_, ?_, ?_⟩, catalog_withRows _ _ _, ?_, ?_⟩
  · exact (catalog_withRows _ _ _).trans (catalog_withRows _ _ _)
  · decide +kernel
  · decide +kernel
  · decide +kernel
  · decide +kernel

def usersOnly : Tables := withRows (versionAt 6).db.data "users" aliceAndBob

/-- It is upgraded and keeps them. -/
theorem upgrade_keeps_users :
    (upgrade 6 usersOnly).1 = .ok () ∧ Grown usersOnly (upgrade 6 usersOnly).2.db.data := by
  have schema : catalog usersOnly = catalog (versionAt 6).db.data := catalog_withRows _ _ _
  have accepted : Accepted usersOnly := by decide +kernel
  have contracts : (rowsOf usersOnly "contracts").isEmpty = true := by decide +kernel
  have emails : DistinctEmails usersOnly := by decide +kernel
  exact (upgrade_iff (fun _ => []) plain (fun _ => "") (fun _ => "2024-01-01") (fun _ => "2024-02-01") 6
    (by decide) usersOnly schema accepted).mpr ⟨.inr (List.isEmpty_iff.mp contracts), .inr emails⟩

end Databases

end TalentTrust.Db
