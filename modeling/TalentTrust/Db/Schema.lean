import TalentTrust.Db.MigrationRunner
import TalentTrust.Lib.Sqlite

/-!
The thirteen migrations of `db/migrations.ts`, over the tables of `TalentTrust.Lib.Sqlite`.

Eleven of them only create tables and indices or add a column, and their statements depend on the
catalog alone. The other two depend on the rows: version 7 saves the users, drops their table and
fills a new one (`addAuthColumns`), and version 11 creates a unique index on the normalized email.
-/

namespace TalentTrust.Db

open TalentTrust.Lib TalentTrust.Lib.Sqlite

/-! ### Tables -/

section Columns

variable (name : String)

/-- `name TEXT`. -/
def text : Column := { name, affinity := .text }

/-- `name TEXT NOT NULL`. -/
def requiredText : Column := { name, affinity := .text, notNull := true }

/-- `name INTEGER NOT NULL`. -/
def requiredInteger : Column := { name, affinity := .integer, notNull := true }

/-- `name INTEGER NOT NULL DEFAULT 0`. -/
def counter : Column :=
  { requiredInteger name with default := some (.literal (.integer 0)) }

/-- `name TEXT NOT NULL DEFAULT (datetime('now'))`. -/
def timestamp : Column :=
  { requiredText name with default := some (.expression "datetime('now')") }

end Columns

/-- `CHECK (column IN (…))`. -/
def inTexts (column : String) (texts : List String) : Check := .oneOf column (texts.map .text)

def roleColumn : Column := { requiredText "role" with default := some (.literal (.text "client")) }

/-- A primary key of type `TEXT` may be `NULL`. -/
def usersTable : TableSchema where
  columns := [text "id", requiredText "username", requiredText "email", roleColumn,
    requiredText "created_at"]
  uniques := [.columns ["id"], .columns ["username"], .columns ["email"]]
  checks := [inTexts "role" ["client", "freelancer", "both"]]

/-- `users` from version 7 on. -/
def usersTableWithAuth : TableSchema where
  columns := [text "id", requiredText "username", requiredText "email", roleColumn,
    text "password_hash", text "refresh_token_hash", requiredText "created_at"]
  uniques := [.columns ["id"], .columns ["username"], .columns ["email"]]
  checks := [inTexts "role" ["client", "freelancer", "both"]]

def contractsTable : TableSchema where
  columns := [text "id", requiredText "title", requiredText "client_id", requiredText "freelancer_id",
    requiredInteger "amount",
    { requiredText "status" with default := some (.literal (.text "draft")) },
    requiredText "created_at"]
  uniques := [.columns ["id"]]
  checks := [.atLeast "amount" 0,
    inTexts "status" ["draft", "active", "completed", "disputed", "cancelled"]]
  references := [⟨"client_id", "users", "id"⟩, ⟨"freelancer_id", "users", "id"⟩]

def smartContractEventsTable : TableSchema where
  columns := [text "eventId", requiredText "contractId", requiredText "eventType",
    text "idempotencyKey", text "payload", requiredText "timestamp"]
  uniques := [.columns ["eventId"], .columns ["contractId", "eventType", "idempotencyKey"]]

def reputationEntriesTable : TableSchema where
  columns := [text "id", requiredText "reviewer_id", requiredText "target_id",
    requiredInteger "rating", text "comment", requiredText "context_id", requiredText "created_at"]
  uniques := [.columns ["id"], .columns ["reviewer_id", "target_id", "context_id"]]
  checks := [.atLeast "rating" 1, .atMost "rating" 5, .lengthAtMost "comment" 1000]
  references := [⟨"reviewer_id", "users", "id"⟩, ⟨"target_id", "users", "id"⟩,
    ⟨"context_id", "contracts", "id"⟩]

def transactionsTable : TableSchema where
  columns := [text "hash", requiredText "status", text "receipt", text "last_checked_at",
    counter "retry_count"]
  uniques := [.columns ["hash"]]

def deploymentHistoryTable : TableSchema where
  columns := [text "id", requiredText "environment_from", text "environment_to",
    requiredText "target_version", text "promotion_id", text "rollback_id",
    requiredText "initiated_by", requiredText "timestamp", requiredText "status", text "error"]
  uniques := [.columns ["id"]]
  checks := [inTexts "status" ["SUCCESS", "FAILURE"]]

def retentionTable : TableSchema where
  columns := [text "id", requiredText "entity_type", requiredText "data",
    requiredText "classification", requiredText "created_at", requiredText "expires_at",
    text "archived_at", text "archived_location", requiredInteger "is_archived",
    text "retention_policy_id", text "metadata", requiredText "updated_at"]
  uniques := [.columns ["id"]]
  checks := [.oneOf "is_archived" [.integer 0, .integer 1]]

def webhookSubscriptionsTable : TableSchema where
  columns := [text "id", text "consumer_id", requiredText "url", requiredText "event_type",
    text "secret",
    { name := "active", affinity := .numeric, default := some (.literal (.integer 1)) },
    timestamp "created_at", timestamp "updated_at"]
  uniques := [.columns ["id"]]

def notificationsTable : TableSchema where
  columns := [text "id", requiredText "user_id", requiredText "title", requiredText "message",
    requiredText "created_at"]
  uniques := [.columns ["id"]]

/-- The fingerprint of the migration has `UNIQUE(dedupe_key)`, the table has not. -/
def webhookDlqTable : TableSchema where
  columns := [text "id", requiredText "webhook_id", requiredText "url", requiredText "body",
    counter "retry_count", text "webhook_secret", requiredText "failed_at",
    requiredText "last_error", requiredText "dedupe_key", text "replayed_at",
    counter "replay_attempts", requiredText "created_at", requiredText "updated_at"]
  uniques := [.columns ["id"]]

/-! ### Statements -/

/-- `columns.some((column) => column.name === …)`, over `table_info`. -/
def hasColumn (c : Catalog) (table column : String) : Bool := column ∈ columnsOf c table

def createUsersAndContractsSchema : List Ddl :=
  [.createTable "users" usersTable, .createTable "contracts" contractsTable,
    .createIndex "contracts" "idx_contracts_client_id" ["client_id"],
    .createIndex "contracts" "idx_contracts_freelancer_id" ["freelancer_id"],
    .createIndex "contracts" "idx_contracts_status" ["status"]]

def addContractVersionColumn (c : Catalog) : List Ddl :=
  if hasColumn c "contracts" "version" then []
  else [.addColumn "contracts" (counter "version") [.atLeast "version" 0]]

def createReputationEntries : List Ddl :=
  [.createTable "reputation_entries" reputationEntriesTable,
    .createIndex "reputation_entries" "idx_reputation_entries_target_id" ["target_id"],
    .createIndex "reputation_entries" "idx_reputation_entries_context_id" ["context_id"]]

def createDeploymentHistoryTable : List Ddl :=
  [.createTable "deployment_history" deploymentHistoryTable,
    .createIndex "deployment_history" "idx_deployment_history_env_from" ["environment_from"],
    .createIndex "deployment_history" "idx_deployment_history_env_to" ["environment_to"]]

def createRetentionTable (tableName : String) : List Ddl :=
  .createTable tableName retentionTable ::
    ["entity_type", "is_archived", "expires_at", "created_at"].map fun column =>
      .createIndex tableName ("idx_" ++ tableName ++ "_" ++ column) [column]

def addStartedAtToTransactions (c : Catalog) : List Ddl :=
  if hasColumn c "transactions" "started_at" then []
  else [.addColumn "transactions" (text "started_at") []]

def createWebhookSubscriptionsTable : List Ddl :=
  [.createTable "webhook_subscriptions" webhookSubscriptionsTable,
    .createIndex "webhook_subscriptions" "idx_webhook_subscriptions_consumer" ["consumer_id"],
    .createIndex "webhook_subscriptions" "idx_webhook_subscriptions_event" ["event_type"]]

def createNotificationsTable : List Ddl :=
  [.createTable "notifications" notificationsTable,
    .createIndex "notifications" "idx_notifications_user_id" ["user_id"],
    .createIndex "notifications" "idx_notifications_created_at" ["created_at"]]

def createWebhookDlqTables : List Ddl :=
  [.createTable "webhook_dlq" webhookDlqTable,
    .createIndex "webhook_dlq" "idx_webhook_dlq_failed_at" ["failed_at"],
    .createIndex "webhook_dlq" "idx_webhook_dlq_dedupe_key" ["dedupe_key"]]

/-- `lower(trim(email))`. -/
def normalizedEmail : Key := .lowerTrim "email"

def emailIndex : Index := ⟨"idx_users_email_normalized", normalizedEmail, true⟩

/-- The body of version 7. The columns of `users` are of type `TEXT`, and what they hold goes
through JavaScript unchanged. -/
def addAuthColumns (coercion : Coercion) (db : Tables) : Outcome := do
  let hasPasswordHash := hasColumn (catalog db) "users" "password_hash"
  let hasRefreshTokenHash := hasColumn (catalog db) "users" "refresh_token_hash"
  if !hasPasswordHash || !hasRefreshTokenHash then
    let users ← selectAll "users" db
    let db ← dropTable "users" db
    let db ← createTable false "users" usersTableWithAuth db
    insertAll coercion "users" users db
  else return db

/-! ### The list -/

/-- What an `up` does. -/
inductive Body where
  | statements (ddl : Catalog → List Ddl)
  | addAuthColumns
  | addNormalizedEmailUniqueIndex

def Body.up (coercion : Coercion) : Body → Tables → Outcome
  | .statements ddl, db => execAll (ddl (catalog db)) db
  | .addAuthColumns, db => Db.addAuthColumns coercion db
  | .addNormalizedEmailUniqueIndex, db => createIndex "users" emailIndex db

structure Definition where
  version : Nat
  name : String
  checksumSource : List String
  body : Body

/-- `MIGRATIONS`. -/
def definitions : List Definition :=
  [⟨1, "create_users_and_contracts_schema",
      ["CREATE TABLE IF NOT EXISTS users (", "CREATE TABLE IF NOT EXISTS contracts (",
        "CREATE INDEX IF NOT EXISTS idx_contracts_client_id",
        "CREATE INDEX IF NOT EXISTS idx_contracts_freelancer_id",
        "CREATE INDEX IF NOT EXISTS idx_contracts_status"],
      .statements fun _ => createUsersAndContractsSchema⟩,
    ⟨2, "add_contract_version_column",
      ["ALTER TABLE contracts ADD COLUMN version INTEGER NOT NULL DEFAULT 0 CHECK (version >= 0)"],
      .statements addContractVersionColumn⟩,
    ⟨3, "create_smart_contract_events_table",
      ["CREATE TABLE IF NOT EXISTS smart_contract_events (",
        "UNIQUE(contractId, eventType, idempotencyKey)"],
      .statements fun _ => [.createTable "smart_contract_events" smartContractEventsTable]⟩,
    ⟨4, "create_reputation_entries",
      ["CREATE TABLE IF NOT EXISTS reputation_entries (",
        "CREATE INDEX IF NOT EXISTS idx_reputation_entries_target_id",
        "CREATE INDEX IF NOT EXISTS idx_reputation_entries_context_id"],
      .statements fun _ => createReputationEntries⟩,
    ⟨5, "create_transactions_table", ["CREATE TABLE IF NOT EXISTS transactions ("],
      .statements fun _ => [.createTable "transactions" transactionsTable]⟩,
    ⟨6, "create_deployment_history_table",
      ["CREATE TABLE IF NOT EXISTS deployment_history (",
        "CREATE INDEX IF NOT EXISTS idx_deployment_history_env_from",
        "CREATE INDEX IF NOT EXISTS idx_deployment_history_env_to"],
      .statements fun _ => createDeploymentHistoryTable⟩,
    ⟨7, "add_auth_columns_to_users",
      ["DROP TABLE IF EXISTS users",
        "CREATE TABLE users (password_hash TEXT, refresh_token_hash TEXT)",
        "INSERT INTO users (id, username, email, role, password_hash, refresh_token_hash, created_at)"],
      .addAuthColumns⟩,
    ⟨8, "create_retention_storage_tables",
      ["CREATE TABLE IF NOT EXISTS retention_local (",
        "CREATE TABLE IF NOT EXISTS retention_archive ("],
      .statements fun _ =>
        createRetentionTable "retention_local" ++ createRetentionTable "retention_archive"⟩,
    ⟨9, "add_started_at_to_transactions",
      ["ALTER TABLE transactions ADD COLUMN started_at TEXT"],
      .statements addStartedAtToTransactions⟩,
    ⟨10, "create_webhook_subscriptions_table",
      ["CREATE TABLE IF NOT EXISTS webhook_subscriptions (",
        "CREATE INDEX IF NOT EXISTS idx_webhook_subscriptions_consumer",
        "CREATE INDEX IF NOT EXISTS idx_webhook_subscriptions_event"],
      .statements fun _ => createWebhookSubscriptionsTable⟩,
    ⟨11, "add_normalized_email_unique_index",
      ["CREATE UNIQUE INDEX IF NOT EXISTS idx_users_email_normalized ON users (lower(trim(email)))"],
      .addNormalizedEmailUniqueIndex⟩,
    ⟨12, "create_notifications_table",
      ["CREATE TABLE IF NOT EXISTS notifications (",
        "CREATE INDEX IF NOT EXISTS idx_notifications_user_id",
        "CREATE INDEX IF NOT EXISTS idx_notifications_created_at"],
      .statements fun _ => createNotificationsTable⟩,
    ⟨13, "create_webhook_dlq_tables",
      ["CREATE TABLE IF NOT EXISTS webhook_dlq (", "id TEXT PRIMARY KEY,",
        "webhook_id TEXT NOT NULL,", "url TEXT NOT NULL,", "body TEXT NOT NULL,",
        "retry_count INTEGER NOT NULL DEFAULT 0,", "webhook_secret TEXT,",
        "failed_at TEXT NOT NULL,", "last_error TEXT NOT NULL,", "dedupe_key TEXT NOT NULL,",
        "replayed_at TEXT,", "replay_attempts INTEGER NOT NULL DEFAULT 0,",
        "created_at TEXT NOT NULL,", "updated_at TEXT NOT NULL", "UNIQUE(dedupe_key)"],
      .statements fun _ => createWebhookDlqTables⟩]

variable (coercion : Coercion) (upText : Nat → String)

/-- A migration of the list; `upText` is what the engine prints for its function. -/
def Definition.migration (definition : Definition) : Migration Tables where
  version := definition.version
  name := definition.name
  checksumSource := some ("\n".intercalate definition.checksumSource)
  upText := upText definition.version
  up := definition.body.up coercion

def migrations : List (Migration Tables) :=
  definitions.map (·.migration coercion upText)

def getLatestSchemaVersion : Nat := (definitions.getLast?.map (·.version)).getD 0

/-! ### Catalogs -/

/-- What an `up` makes of the catalog where it succeeds. -/
def Body.onCatalog : Body → Catalog → Option Catalog
  | .statements ddl, c => onCatalogAll (ddl c) c
  | .addAuthColumns, c =>
    if c.get? "users" = some usersTable then
      some ((c.erase "users").set "users" usersTableWithAuth)
    else none
  | .addNormalizedEmailUniqueIndex, c =>
    if c.get? "users" = some usersTableWithAuth ∧ hasIndex c emailIndex.name = false then
      some (c.set "users" (usersTableWithAuth.withIndex emailIndex))
    else none

def catalogAt (k : Nat) : Catalog :=
  (definitions.take k).foldl (fun c definition => (definition.body.onCatalog c).getD c) .empty

end TalentTrust.Db
