import TalentTrust.Lib.OrderedMap
import TalentTrust.Lib.Text

/-!
A small part of SQLite: tables with their constraints, and the statements that change them.

A row gives a value to every column. A value is of one of five storage classes, and the affinity
of a column says which of them it can hold. `Accepted` says that the rows of all tables meet
their constraints, with foreign keys enforced.

`Catalog` is what a database is without its rows. Whether a statement that creates tables,
indices or columns succeeds, and what becomes of the catalog, depends on the catalog alone
(`Ddl.exec_of_onCatalog`), and such a statement leaves every row as it was in the columns that
its table had (`Grown`).
-/

namespace TalentTrust.Lib.Sqlite

/-! ### Values -/

/-- A floating-point number, or an infinity. -/
abbrev Real64 := WithBot (WithTop ℚ)

def Real64.ofInt (n : Int) : Real64 := (((n : ℚ) : WithTop ℚ) : WithBot (WithTop ℚ))

inductive Value where
  | null
  | integer (n : Int)
  | real (x : Real64)
  | text (s : String)
  | blob (bytes : List UInt8)
  deriving DecidableEq

namespace Value

/-- `a = b` is true. -/
def same : Value → Value → Bool
  | .null, _ | _, .null => false
  | .integer m, .real y => Real64.ofInt m = y
  | .real x, .integer n => x = Real64.ofInt n
  | a, b => a = b

/-- The bytes of a text or a blob. -/
def bytes : Value → Option (List UInt8)
  | .text s => some (utf8Bytes s)
  | .blob bytes => some bytes
  | .null | .integer _ | .real _ => none

end Value

inductive Affinity where
  | text
  | integer
  | numeric
  deriving DecidableEq, Repr

/-- The values that a column can hold: one of text affinity stores a number as its text. -/
def Affinity.admits : Affinity → Value → Bool
  | .text, .integer _ | .text, .real _ => false
  | _, _ => true

/-- How a value is stored in a column. One that the column can hold is stored as it is. -/
structure Coercion where
  store : Affinity → Value → Value
  kept : ∀ affinity value, affinity.admits value = true → store affinity value = value

/-! ### Schemas -/

inductive Default where
  | literal (value : Value)
  | expression (sql : String)
  deriving DecidableEq

structure Column where
  name : String
  affinity : Affinity
  notNull : Bool := false
  default : Option Default := none
  deriving DecidableEq

/-- The value of a new column in the rows that are there; it has to be a constant. -/
def Column.initial (column : Column) : Option Value :=
  match column.default with
  | none => some .null
  | some (.literal value) => some value
  | some (.expression _) => none

abbrev Row := String → Value

/-- A `CHECK` of one column. -/
inductive Check where
  | oneOf (column : String) (values : List Value)
  | atLeast (column : String) (bound : Int)
  | atMost (column : String) (bound : Int)
  | lengthAtMost (column : String) (bound : Nat)
  deriving DecidableEq

def Check.column : Check → String
  | .oneOf column _ | .atLeast column _ | .atMost column _ | .lengthAtMost column _ => column

/-- The condition on a value; `NULL` passes. Texts and blobs are above all numbers. -/
def Check.passes : Check → Value → Bool
  | _, .null => true
  | .oneOf _ values, value => values.any value.same
  | .atLeast _ bound, .integer n => bound ≤ n
  | .atLeast _ bound, .real x => Real64.ofInt bound ≤ x
  | .atLeast _ _, .text _ | .atLeast _ _, .blob _ => true
  | .atMost _ bound, .integer n => n ≤ bound
  | .atMost _ bound, .real x => x ≤ Real64.ofInt bound
  | .atMost _ _, .text _ | .atMost _ _, .blob _ => false
  -- The length of a text is counted up to its first NUL.
  | .lengthAtMost _ bound, .text s => (s.toList.takeWhile (· ≠ Char.ofNat 0)).length ≤ bound
  | .lengthAtMost _ bound, .blob bytes => bytes.length ≤ bound
  | .lengthAtMost _ bound, .integer n => (toString n).length ≤ bound
  -- A column with such a check is of text affinity and holds no numbers.
  | .lengthAtMost _ _, .real _ => true

def Check.holds (check : Check) (row : Row) : Bool := check.passes (row check.column)

/-- `trim` removes spaces, and `lower` changes the letters of ASCII. -/
def lowerTrim (bytes : List UInt8) : List UInt8 :=
  let trimmed := ((bytes.dropWhile (· = 32)).reverse.dropWhile (· = 32)).reverse
  trimmed.map fun b => if 65 ≤ b ∧ b ≤ 90 then b + 32 else b

/-- What a unique constraint or an index compares. -/
inductive Key where
  | columns (names : List String)
  /-- `lower(trim(column))`. -/
  | lowerTrim (column : String)
  deriving DecidableEq

def Key.names : Key → List String
  | .columns names => names
  | .lowerTrim column => [column]

/-- Two rows have the same key; `NULL` is not the same as anything. -/
def Key.clash (r r' : Row) : Key → Bool
  | .columns names => names.all fun name => (r name).same (r' name)
  | .lowerTrim column =>
    match (r column).bytes, (r' column).bytes with
    | some a, some b => Sqlite.lowerTrim a = Sqlite.lowerTrim b
    | _, _ => false

structure Reference where
  column : String
  parent : String
  parentColumn : String
  deriving DecidableEq

structure Index where
  name : String
  key : Key
  unique : Bool
  deriving DecidableEq

structure TableSchema where
  columns : List Column
  uniques : List Key := []
  checks : List Check := []
  references : List Reference := []
  indexes : List Index := []
  deriving DecidableEq

variable (schema : TableSchema)

def TableSchema.names : List String := schema.columns.map (·.name)

def TableSchema.uniqueKeys : List Key :=
  schema.uniques ++ (schema.indexes.filter (·.unique)).map (·.key)

def TableSchema.withIndex (index : Index) : TableSchema :=
  { schema with indexes := schema.indexes ++ [index] }

def TableSchema.withColumn (column : Column) (checks : List Check) : TableSchema :=
  { schema with columns := schema.columns ++ [column], checks := schema.checks ++ checks }

structure Table where
  schema : TableSchema
  rows : List Row

abbrev Tables := OrderedMap String Table

abbrev Catalog := OrderedMap String TableSchema

def catalog (db : Tables) : Catalog := db.mapValues (·.schema)

/-- The rows of a table; there are none where there is no table. -/
def rowsOf (db : Tables) (name : String) : List Row := ((db.get? name).map (·.rows)).getD []

def columnsOf (c : Catalog) (name : String) : List String := ((c.get? name).map (·.names)).getD []

/-! ### Constraints -/

/-- The value of a foreign key is that of some row of the parent. -/
def Reference.met (db : Tables) (reference : Reference) (row : Row) : Bool :=
  row reference.column = .null ||
    (rowsOf db reference.parent).any fun parent =>
      (row reference.column).same (parent reference.parentColumn)

/-- Rows meet the constraints of a table that say nothing of other tables. -/
structure TableSchema.Meets (rows : List Row) : Prop where
  admitted : ∀ row ∈ rows, ∀ column ∈ schema.columns, column.affinity.admits (row column.name) = true
  notNull : ∀ row ∈ rows, ∀ column ∈ schema.columns, column.notNull = true → row column.name ≠ .null
  checks : ∀ row ∈ rows, ∀ check ∈ schema.checks, check.holds row = true
  uniques : ∀ key ∈ schema.uniqueKeys, rows.Pairwise fun r r' => key.clash r r' = false

/-- The rows of a table meet its constraints. -/
structure Table.Accepts (db : Tables) (t : Table) : Prop where
  meets : t.schema.Meets t.rows
  references : ∀ row ∈ t.rows, ∀ reference ∈ t.schema.references, reference.met db row = true

def Accepted (db : Tables) : Prop := ∀ name t, db.get? name = some t → t.Accepts db

instance (schema : TableSchema) (rows : List Row) : Decidable (schema.Meets rows) :=
  decidable_of_iff (_ ∧ _ ∧ _ ∧ _)
    ⟨fun h => ⟨h.1, h.2.1, h.2.2.1, h.2.2.2⟩, fun h => ⟨h.admitted, h.notNull, h.checks, h.uniques⟩⟩

instance (db : Tables) (t : Table) : Decidable (t.Accepts db) :=
  decidable_of_iff (_ ∧ _) ⟨fun h => ⟨h.1, h.2⟩, fun h => ⟨h.meets, h.references⟩⟩

instance (db : Tables) : Decidable (Accepted db) :=
  decidable_of_iff (∀ e ∈ db.entries, e.2.Accepts db)
    ⟨fun h name _ found => h (name, _) (OrderedMap.get?_eq_some_iff.mp found),
      fun h e mem => h e.1 e.2 (OrderedMap.get?_eq_some_iff.mpr mem)⟩

/-! ### Statements -/

/-- What a statement makes of the database, or an error with the database as it was. -/
abbrev Outcome := Except (String × Tables) Tables

def fail (message : String) (db : Tables) : Outcome := .error (message, db)

/-- `CREATE TABLE`, with `IF NOT EXISTS` or without. -/
def createTable (ifNotExists : Bool) (name : String) (schema : TableSchema) (db : Tables) : Outcome :=
  if (db.get? name).isSome then
    if ifNotExists then .ok db else fail ("table " ++ name ++ " already exists") db
  else .ok (db.set name ⟨schema, []⟩)

def hasIndex (c : Catalog) (name : String) : Bool :=
  c.entries.any fun e => e.2.indexes.any fun index => index.name = name

/-- Two rows of the table have the same key. -/
def Table.duplicates (t : Table) (key : Key) : Prop :=
  ¬t.rows.Pairwise fun r r' => key.clash r r' = false

instance (t : Table) (key : Key) : Decidable (t.duplicates key) :=
  inferInstanceAs (Decidable ¬_)

/-- `CREATE INDEX IF NOT EXISTS` and `CREATE UNIQUE INDEX IF NOT EXISTS`. -/
def createIndex (table : String) (index : Index) (db : Tables) : Outcome :=
  if hasIndex (catalog db) index.name then .ok db
  else match db.get? table with
    | none => fail ("no such table: main." ++ table) db
    | some t =>
      if ¬index.key.names.all (· ∈ t.schema.names) then fail "no such column" db
      else if index.unique = true ∧ t.duplicates index.key then
        fail ("UNIQUE constraint failed: index '" ++ index.name ++ "'") db
      else .ok (db.set table { t with schema := t.schema.withIndex index })

/-- `ALTER TABLE … ADD COLUMN`, with the checks of the new column. -/
def addColumn (table : String) (column : Column) (checks : List Check) (db : Tables) : Outcome :=
  match db.get? table with
  | none => fail ("no such table: " ++ table) db
  | some t =>
    if column.name ∈ t.schema.names then fail ("duplicate column name: " ++ column.name) db
    else match column.initial with
      | none => fail "Cannot add a column with non-constant default" db
      | some value =>
        if column.notNull = true ∧ value = .null then
          fail "Cannot add a NOT NULL column with default value NULL" db
        else
          let rows := t.rows.map fun row => Function.update row column.name value
          if ¬rows.all fun row => checks.all fun check => check.holds row then
            fail "CHECK constraint failed" db
          else .ok (db.set table ⟨t.schema.withColumn column checks, rows⟩)

/-- Some row of the table is the parent of a row of another one. -/
def referenced (db : Tables) (name : String) (t : Table) : Bool :=
  db.entries.any fun child => child.1 ≠ name && child.2.schema.references.any fun reference =>
    reference.parent = name && child.2.rows.any fun row => t.rows.any fun parent =>
      (row reference.column).same (parent reference.parentColumn)

/-- `DROP TABLE IF EXISTS`. With foreign keys enforced it begins by deleting all rows, which
fails if one of them is referenced. -/
def dropTable (name : String) (db : Tables) : Outcome :=
  match db.get? name with
  | none => .ok db
  | some t => if referenced db name t then fail "FOREIGN KEY constraint failed" db else .ok (db.erase name)

/-- A row as it is read: what is not a column is not there. -/
def TableSchema.read (row : Row) : Row := fun name =>
  if name ∈ schema.names then row name else .null

def selectAll (name : String) (db : Tables) : Except (String × Tables) (List Row) :=
  match db.get? name with
  | none => .error ("no such table: " ++ name, db)
  | some t => .ok (t.rows.map t.schema.read)

/-- A row as the columns of a table store it. -/
def TableSchema.stored (coercion : Coercion) (schema : TableSchema) (row : Row) : Row := fun name =>
  match schema.columns.find? fun column => column.name = name with
  | none => .null
  | some column => coercion.store column.affinity (row name)

/-- The constraint that a new row of a table would violate. -/
def violation (db : Tables) (name : String) (t : Table) (row : Row) : Option String :=
  if t.schema.columns.any fun column => column.notNull && row column.name = .null then
    some ("NOT NULL constraint failed: " ++ name)
  else if ¬t.schema.checks.all fun check => check.holds row then
    some ("CHECK constraint failed: " ++ name)
  else if t.schema.uniqueKeys.any fun key => t.rows.any fun old => key.clash old row then
    some ("UNIQUE constraint failed: " ++ name)
  else if ¬t.schema.references.all fun reference => reference.met db row then
    some "FOREIGN KEY constraint failed"
  else none

variable (coercion : Coercion) (name : String)

/-- `INSERT INTO` with a value for every column. -/
def insert (row : Row) (db : Tables) : Outcome :=
  match db.get? name with
  | none => fail ("no such table: " ++ name) db
  | some t =>
    match violation db name t (t.schema.stored coercion row) with
    | some message => fail message db
    | none => .ok (db.set name { t with rows := t.rows ++ [t.schema.stored coercion row] })

def insertAll (rows : List Row) (db : Tables) : Outcome :=
  rows.foldlM (fun db row => insert coercion name row db) db

/-! ### Statements that depend on the catalog alone -/

inductive Ddl where
  /-- `CREATE TABLE IF NOT EXISTS`. -/
  | createTable (name : String) (schema : TableSchema)
  /-- `CREATE INDEX IF NOT EXISTS`. -/
  | createIndex (table name : String) (columns : List String)
  /-- `ALTER TABLE … ADD COLUMN`, with checks of the new column. -/
  | addColumn (table : String) (column : Column) (checks : List Check)

namespace Ddl

def exec : Ddl → Tables → Outcome
  | .createTable name schema => Sqlite.createTable true name schema
  | .createIndex table name columns => Sqlite.createIndex table ⟨name, .columns columns, false⟩
  | .addColumn table column checks => Sqlite.addColumn table column checks

/-- What the statement makes of the catalog, if it succeeds for all rows. -/
def onCatalog : Ddl → Catalog → Option Catalog
  | .createTable name schema, c => if (c.get? name).isSome then some c else some (c.set name schema)
  | .createIndex table name columns, c =>
    if hasIndex c name then some c
    else (c.get? table).bind fun schema =>
      if columns.all (· ∈ schema.names) then
        some (c.set table (schema.withIndex ⟨name, .columns columns, false⟩))
      else none
  | .addColumn table column checks, c =>
    (c.get? table).bind fun schema => column.initial.bind fun value =>
      if column.name ∉ schema.names ∧ (column.notNull = true → value ≠ .null) ∧
          ∀ check ∈ checks, check.column = column.name ∧ check.passes value = true then
        some (c.set table (schema.withColumn column checks))
      else none

end Ddl

/-- `db.exec` of several statements. -/
def execAll (statements : List Ddl) (db : Tables) : Outcome :=
  statements.foldlM (fun db statement => statement.exec db) db

def onCatalogAll (statements : List Ddl) (c : Catalog) : Option Catalog :=
  statements.foldlM (fun c statement => statement.onCatalog c) c

/-! ### Reading a changed database -/

variable (db : Tables) (name : String)

theorem catalog_set (t : Table) : catalog (db.set name t) = (catalog db).set name t.schema :=
  db.mapValues_set _ name t

theorem catalog_erase : catalog (db.erase name) = (catalog db).erase name :=
  db.mapValues_erase _ name

theorem get?_catalog : (catalog db).get? name = (db.get? name).map (·.schema) :=
  db.get?_mapValues _ name

variable {name : String} {db : Tables} {t : Table}

theorem schema_of_get? (found : db.get? name = some t) :
    (catalog db).get? name = some t.schema := by
  rw [get?_catalog, found]
  rfl

variable {schema : TableSchema}

theorem exists_table (found : (catalog db).get? name = some schema) :
    ∃ t, db.get? name = some t ∧ t.schema = schema := by
  rw [get?_catalog] at found
  exact Option.map_eq_some_iff.mp found

theorem rowsOf_of_get? (found : db.get? name = some t) : rowsOf db name = t.rows := by
  rw [rowsOf, found]
  rfl

variable {c : Catalog}

theorem columnsOf_of_get? (found : c.get? name = some schema) : columnsOf c name = schema.names := by
  rw [columnsOf, found]
  rfl

variable {row : Row}

theorem exists_of_mem_rowsOf (mem : row ∈ rowsOf db name) :
    ∃ t, db.get? name = some t ∧ row ∈ t.rows := by
  cases found : db.get? name with
  | none =>
    rw [rowsOf, found] at mem
    cases mem
  | some t =>
    rw [rowsOf_of_get? found] at mem
    exact ⟨t, rfl, mem⟩

theorem rowsOf_set (db : Tables) (name j : String) (t : Table) :
    rowsOf (db.set name t) j = if j = name then t.rows else rowsOf db j := by
  rw [rowsOf, OrderedMap.get?_set]
  split <;> rfl

theorem columnsOf_set (c : Catalog) (name j : String) (schema : TableSchema) :
    columnsOf (c.set name schema) j = if j = name then schema.names else columnsOf c j := by
  rw [columnsOf, OrderedMap.get?_set]
  split <;> rfl

def withRows (db : Tables) (name : String) (rows : List Row) : Tables :=
  match db.get? name with
  | none => db
  | some t => db.set name { t with rows }

theorem catalog_withRows (db : Tables) (name : String) (rows : List Row) :
    catalog (withRows db name rows) = catalog db := by
  rw [withRows]
  split
  · rfl
  · rename_i t found
    rw [catalog_set]
    have schema := schema_of_get? found
    exact OrderedMap.set_of_get? schema

/-! ### Rows that agree -/

/-- The rows are the same, one by one, in the given columns. -/
def Agree (names : List String) : List Row → List Row → Prop :=
  List.Forall₂ fun row row' => ∀ name ∈ names, row' name = row name

theorem Agree.refl (names : List String) (rows : List Row) : Agree names rows rows :=
  List.forall₂_same.mpr fun _ _ _ _ => rfl

variable {names : List String}

theorem Agree.trans {names' : List String} (sub : names ⊆ names') {a b c : List Row}
    (first : Agree names a b) (second : Agree names' b c) : Agree names a c := by
  induction first generalizing c with
  | nil =>
    cases second
    exact .nil
  | cons same _ ih =>
    cases second with
    | cons same' rest =>
      exact .cons (fun name mem => (same' name (sub mem)).trans (same name mem)) (ih rest)

theorem Agree.symm {a b : List Row} (agree : Agree names a b) : Agree names b a :=
  agree.flip.imp fun _ _ same name mem => (same name mem).symm

theorem Agree.nil_iff {a b : List Row} (agree : Agree names a b) : b = [] ↔ a = [] := by
  rw [← List.length_eq_zero_iff, ← List.length_eq_zero_iff, agree.length_eq]

theorem Agree.exists_right {a b : List Row} (agree : Agree names a b) (mem : row ∈ a) :
    ∃ row' ∈ b, ∀ name ∈ names, row' name = row name := by
  induction agree with
  | nil => cases mem
  | cons same _ ih =>
    rcases List.mem_cons.mp mem with rfl | later
    · exact ⟨_, List.mem_cons_self, same⟩
    · obtain ⟨row', mem', same'⟩ := ih later
      exact ⟨row', List.mem_cons_of_mem _ mem', same'⟩

theorem Agree.exists_left {a b : List Row} (agree : Agree names a b) (mem : row ∈ b) :
    ∃ old ∈ a, ∀ name ∈ names, row name = old name := by
  obtain ⟨old, mem', same⟩ := agree.symm.exists_right mem
  exact ⟨old, mem', fun name listed => (same name listed).symm⟩

theorem Agree.pairwise {R : Row → Row → Prop}
    (reads : ∀ r s r' s' : Row, (∀ name ∈ names, r' name = r name) → (∀ name ∈ names, s' name = s name) → R r s → R r' s')
    {a b : List Row} (agree : Agree names a b) (pairwise : a.Pairwise R) : b.Pairwise R := by
  induction agree with
  | nil => exact .nil
  | cons same rest ih =>
    obtain ⟨related, pairwise⟩ := List.pairwise_cons.mp pairwise
    refine List.pairwise_cons.mpr ⟨fun s' mem => ?_, ih pairwise⟩
    obtain ⟨s, mem, same'⟩ := Agree.exists_left rest mem
    exact reads _ s _ s' same same' (related s mem)

theorem Key.clash_congr {key : Key} {r s r' s' : Row} (left : ∀ name ∈ key.names, r' name = r name)
    (right : ∀ name ∈ key.names, s' name = s name) : key.clash r' s' = key.clash r s := by
  cases key with
  | columns names =>
    rw [Bool.eq_iff_iff]
    simp only [Key.clash, List.all_eq_true]
    refine forall₂_congr fun name mem => ?_
    rw [left name mem, right name mem]
  | lowerTrim column =>
    simp [Key.clash, left column (List.mem_singleton.mpr rfl), right column (List.mem_singleton.mpr rfl)]

theorem Agree.distinct {key : Key} (within : key.names ⊆ names) {a b : List Row}
    (agree : Agree names a b) (distinct : a.Pairwise fun r r' => key.clash r r' = false) :
    b.Pairwise fun r r' => key.clash r r' = false := by
  refine agree.pairwise (fun r s r' s' left right apart => ?_) distinct
  rwa [Key.clash_congr (fun name mem => left name (within mem)) fun name mem => right name (within mem)]

/-- `new` has the columns of `old` and more that may be `NULL`, and no constraint that `old` does
not have. -/
structure TableSchema.Widens (old new : TableSchema) : Prop where
  names : old.names ⊆ new.names
  columns : ∀ column ∈ new.columns,
    column ∈ old.columns ∨ column.notNull = false ∧ column.name ∉ old.names
  checks : ∀ check ∈ new.checks, check ∈ old.checks ∧ check.column ∈ old.names
  uniques : ∀ key ∈ new.uniqueKeys, key ∈ old.uniqueKeys ∧ key.names ⊆ old.names

theorem TableSchema.meets_nil (schema : TableSchema) : schema.Meets [] where
  admitted := fun _ mem => absurd mem List.not_mem_nil
  notNull := fun _ mem => absurd mem List.not_mem_nil
  checks := fun _ mem => absurd mem List.not_mem_nil
  uniques := fun _ _ => .nil

theorem TableSchema.mem_names {column : Column} (mem : column ∈ schema.columns) :
    column.name ∈ schema.names :=
  List.mem_map_of_mem mem

/-- Rows that agree with those of the old table, and hold `NULL` in the new columns, meet the
constraints of the new one. -/
theorem TableSchema.Widens.meets {old new : TableSchema} (widens : old.Widens new) {rows rows' : List Row}
    (agree : Agree old.names rows rows')
    (null : ∀ row ∈ rows', ∀ name ∈ new.names, name ∉ old.names → row name = .null)
    (meets : old.Meets rows) : new.Meets rows' where
  admitted := by
    intro row' mem column listed
    obtain ⟨row, mem', same⟩ := agree.exists_left mem
    rcases widens.columns column listed with kept | ⟨_, fresh⟩
    · rw [same _ (mem_names kept)]
      exact meets.admitted row mem' column kept
    · rw [null row' mem _ (mem_names listed) fresh]
      cases column.affinity <;> rfl
  notNull := by
    intro row' mem column listed required
    obtain ⟨row, mem', same⟩ := agree.exists_left mem
    rcases widens.columns column listed with kept | ⟨optional, _⟩
    · rw [same _ (mem_names kept)]
      exact meets.notNull row mem' column kept required
    · rw [optional] at required
      cases required
  checks := by
    intro row' mem check listed
    obtain ⟨row, mem', same⟩ := agree.exists_left mem
    obtain ⟨kept, within⟩ := widens.checks check listed
    rw [Check.holds, same _ within]
    exact meets.checks row mem' check kept
  uniques := by
    intro key listed
    obtain ⟨kept, within⟩ := widens.uniques key listed
    exact agree.distinct within (meets.uniques key kept)

/-! ### Databases that have grown -/

/-- Every table is still there with its columns, and its rows are the same in these. -/
structure Grown (db db' : Tables) : Prop where
  columns : ∀ name, columnsOf (catalog db) name ⊆ columnsOf (catalog db') name
  rows : ∀ name, Agree (columnsOf (catalog db) name) (rowsOf db name) (rowsOf db' name)

theorem Grown.refl (db : Tables) : Grown db db where
  columns := fun _ => List.Subset.refl _
  rows := fun _ => .refl _ _

theorem Grown.trans {a b c : Tables} (first : Grown a b) (second : Grown b c) : Grown a c where
  columns := fun name => List.Subset.trans (first.columns name) (second.columns name)
  rows := fun name => (first.rows name).trans (first.columns name) (second.rows name)

theorem Grown.set (columns : columnsOf (catalog db) name ⊆ t.schema.names)
    (rows : Agree (columnsOf (catalog db) name) (rowsOf db name) t.rows) :
    Grown db (db.set name t) where
  columns := by
    intro j
    rw [catalog_set, columnsOf_set]
    split
    · rename_i same
      exact same ▸ columns
    · exact List.Subset.refl _
  rows := by
    intro j
    rw [rowsOf_set]
    split
    · rename_i same
      exact same ▸ rows
    · exact .refl _ _

/-- What matters is what the tables are, not the order in which they were created. -/
theorem Grown.of_get? {db' db'' : Tables} (same : ∀ name, db''.get? name = db'.get? name)
    (grown : Grown db db') : Grown db db'' where
  columns := by
    intro name
    have columns : columnsOf (catalog db'') name = columnsOf (catalog db') name := by
      rw [columnsOf, columnsOf, get?_catalog, get?_catalog, same]
    exact columns ▸ grown.columns name
  rows := by
    intro name
    have rows : rowsOf db'' name = rowsOf db' name := by rw [rowsOf, rowsOf, same]
    exact rows ▸ grown.rows name

theorem Grown.replace (columns : columnsOf (catalog db) name ⊆ t.schema.names)
    (rows : Agree (columnsOf (catalog db) name) (rowsOf db name) t.rows) :
    Grown db ((db.erase name).set name t) := by
  refine .of_get? (fun j => ?_) (.set columns rows)
  rw [OrderedMap.get?_set, OrderedMap.get?_set, OrderedMap.get?_erase]
  split <;> rfl

/-! ### Statements and the catalog -/

theorem createTable_of_onCatalog
    (ok : (Ddl.createTable name schema).onCatalog (catalog db) = some c) :
    ∃ db', createTable true name schema db = .ok db' ∧ catalog db' = c ∧ Grown db db' := by
  rw [Ddl.onCatalog, get?_catalog, Option.isSome_map] at ok
  rw [createTable]
  split at ok
  · rename_i present
    cases ok
    exact ⟨db, by rw [if_pos present]; rfl, rfl, .refl db⟩
  · rename_i absent
    cases ok
    have missing : db.get? name = none := by simpa using absent
    refine ⟨_, if_neg absent, catalog_set db name _, .set ?_ ?_⟩
    · rw [columnsOf, get?_catalog, missing]
      exact List.nil_subset _
    · rw [rowsOf, missing]
      exact .nil

theorem createIndex_of_onCatalog {table : String} {columns : List String}
    (ok : (Ddl.createIndex table name columns).onCatalog (catalog db) = some c) :
    ∃ db', createIndex table ⟨name, .columns columns, false⟩ db = .ok db' ∧ catalog db' = c ∧
      Grown db db' := by
  rw [Ddl.onCatalog] at ok
  rw [createIndex]
  split at ok
  · rename_i present
    cases ok
    exact ⟨db, if_pos present, rfl, .refl db⟩
  · rename_i absent
    obtain ⟨schema, found, ok⟩ := Option.bind_eq_some_iff.mp ok
    obtain ⟨t, stored, rfl⟩ := exists_table found
    split at ok
    · rename_i known
      cases ok
      rw [if_neg absent, stored]
      refine ⟨db.set table { t with schema := t.schema.withIndex ⟨name, .columns columns, false⟩ }, ?_,
        catalog_set db table _, .set ?_ ?_⟩
      · simp [Key.names, known]
      · rw [columnsOf_of_get? found]
        exact List.Subset.refl _
      · rw [rowsOf_of_get? stored]
        exact .refl _ _
    · cases ok

theorem addColumn_of_onCatalog {table : String} {column : Column} {checks : List Check}
    (ok : (Ddl.addColumn table column checks).onCatalog (catalog db) = some c) :
    ∃ db', addColumn table column checks db = .ok db' ∧ catalog db' = c ∧ Grown db db' := by
  obtain ⟨schema, found, ok⟩ := Option.bind_eq_some_iff.mp ok
  obtain ⟨value, initial, ok⟩ := Option.bind_eq_some_iff.mp ok
  obtain ⟨t, stored, rfl⟩ := exists_table found
  split at ok
  · rename_i conditions
    obtain ⟨fresh, present, pass⟩ := conditions
    cases ok
    have passes : (t.rows.map fun row => Function.update row column.name value).all
        (fun row => checks.all fun check => check.holds row) = true := by
      simp only [List.all_map, List.all_eq_true, Function.comp]
      intro row _ check mem
      rw [Check.holds, (pass check mem).1, Function.update_self]
      exact (pass check mem).2
    have allowed : ¬(column.notNull = true ∧ value = .null) := fun bad => present bad.1 bad.2
    rw [addColumn, stored]
    refine ⟨db.set table ⟨t.schema.withColumn column checks,
      t.rows.map fun row => Function.update row column.name value⟩, ?_, catalog_set db table _,
      .set ?_ ?_⟩
    · simp [if_neg fresh, initial, if_neg allowed, passes]
    · rw [columnsOf_of_get? found, TableSchema.names, TableSchema.names, TableSchema.withColumn,
        List.map_append]
      exact List.subset_append_left _ _
    · rw [rowsOf_of_get? stored, columnsOf_of_get? found]
      refine List.forall₂_map_right_iff.mpr (List.forall₂_same.mpr fun row _ name listed => ?_)
      have other : name ≠ column.name := fun same => fresh (same ▸ listed)
      exact Function.update_of_ne other _ _
  · cases ok

/-- If a statement suits the catalog, it succeeds whatever the rows are. -/
theorem Ddl.exec_of_onCatalog {statement : Ddl} (ok : statement.onCatalog (catalog db) = some c) :
    ∃ db', statement.exec db = .ok db' ∧ catalog db' = c ∧ Grown db db' := by
  cases statement with
  | createTable name schema => exact createTable_of_onCatalog ok
  | createIndex table name columns => exact createIndex_of_onCatalog ok
  | addColumn table column checks => exact addColumn_of_onCatalog ok

theorem execAll_of_onCatalog {statements : List Ddl}
    (ok : onCatalogAll statements (catalog db) = some c) :
    ∃ db', execAll statements db = .ok db' ∧ catalog db' = c ∧ Grown db db' := by
  induction statements generalizing db with
  | nil =>
    cases ok
    exact ⟨db, rfl, rfl, .refl db⟩
  | cons statement rest ih =>
    obtain ⟨c₁, first, ok⟩ := Option.bind_eq_some_iff.mp ok
    obtain ⟨db₁, executed, rfl, grown⟩ := Ddl.exec_of_onCatalog first
    obtain ⟨db₂, executed', eq, grown'⟩ := ih ok
    refine ⟨db₂, ?_, eq, grown.trans grown'⟩
    rw [execAll, List.foldlM_cons, executed]
    exact executed'

/-! ### Filling a table again -/

variable (coercion : Coercion)

theorem TableSchema.stored_of_admitted
    (admitted : ∀ column ∈ schema.columns, column.affinity.admits (row column.name) = true)
    (listed : name ∈ schema.names) : schema.stored coercion row name = row name := by
  rw [stored]
  cases found : schema.columns.find? fun column => column.name = name with
  | none =>
    obtain ⟨column, mem, rfl⟩ := List.mem_map.mp listed
    simpa using List.find?_eq_none.mp found column mem
  | some column =>
    have same : column.name = name := by simpa using List.find?_some found
    exact coercion.kept _ _ (same ▸ admitted column (List.mem_of_find?_eq_some found))

theorem TableSchema.stored_of_notMem (unlisted : name ∉ schema.names) :
    schema.stored coercion row name = .null := by
  rw [stored]
  cases found : schema.columns.find? fun column => column.name = name with
  | none => rfl
  | some column =>
    have same : column.name = name := by simpa using List.find?_some found
    exact absurd (same ▸ mem_names (List.mem_of_find?_eq_some found)) unlisted

theorem violation_of_meets {rest : List Row} (alone : t.schema.references = [])
    (meets : t.schema.Meets (t.rows ++ row :: rest)) : violation db name t row = none := by
  have mem : row ∈ t.rows ++ row :: rest := List.mem_append_right _ List.mem_cons_self
  have present : ¬(t.schema.columns.any fun column => column.notNull && row column.name = .null) = true := by
    simp only [List.any_eq_true, Bool.and_eq_true, decide_eq_true_eq, not_exists, not_and]
    exact fun column listed required => meets.notNull row mem column listed required
  have checked : (t.schema.checks.all fun check => check.holds row) = true :=
    List.all_eq_true.mpr fun check listed => meets.checks row mem check listed
  have distinct : ¬(t.schema.uniqueKeys.any fun key => t.rows.any fun old => key.clash old row) = true := by
    simp only [List.any_eq_true, not_exists, not_and, Bool.not_eq_true]
    intro key listed old earlier
    exact (List.pairwise_append.mp (meets.uniques key listed)).2.2 old earlier row List.mem_cons_self
  simp only [violation, if_neg present, checked, if_neg distinct, alone, List.all_nil,
    not_true_eq_false, if_false]

theorem insertAll_of_meets {rows : List Row} (found : db.get? name = some t)
    (alone : t.schema.references = [])
    (meets : t.schema.Meets (t.rows ++ rows.map (t.schema.stored coercion))) :
    insertAll coercion name rows db =
      .ok (db.set name { t with rows := t.rows ++ rows.map (t.schema.stored coercion) }) := by
  -- The induction is on the rows that are left; those before them are in the table.
  induction rows generalizing t db with
  | nil =>
    simp only [List.map_nil, List.append_nil]
    rw [OrderedMap.set_of_get? found]
    rfl
  | cons row rest ih =>
    rw [List.map_cons] at meets ⊢
    have inserted : insert coercion name row db =
        .ok (db.set name { t with rows := t.rows ++ [t.schema.stored coercion row] }) := by
      rw [insert, found]
      simp [violation_of_meets alone meets]
    rw [List.append_cons] at meets ⊢
    rw [insertAll, List.foldlM_cons, inserted]
    set grown : Table := { t with rows := t.rows ++ [t.schema.stored coercion row] } with grown_eq
    have last : insertAll coercion name rest (db.set name grown) = _ :=
      ih (OrderedMap.get?_set_self db name grown) alone meets
    rw [OrderedMap.set_set] at last
    exact last

/-- A row that was read from the old table is stored in the new one as it is. -/
theorem TableSchema.Widens.stored_read {old new : TableSchema} (widens : old.Widens new)
    (coercion : Coercion)
    (admitted : ∀ column ∈ old.columns, column.affinity.admits (row column.name) = true) :
    new.stored coercion (old.read row) = old.read row := by
  funext name
  by_cases listed : name ∈ new.names
  · refine stored_of_admitted coercion (fun column mem => ?_) listed
    rcases widens.columns column mem with kept | ⟨_, fresh⟩
    · rw [read, if_pos (mem_names kept)]
      exact admitted column kept
    · rw [read, if_neg fresh]
      cases column.affinity <;> rfl
  · rw [stored_of_notMem coercion listed, read, if_neg fun old => listed (widens.names old)]

theorem TableSchema.Widens.insertAll_read {old new : TableSchema} (widens : old.Widens new)
    (alone : new.references = []) (coercion : Coercion) {rows : List Row} (meets : old.Meets rows)
    (found : db.get? name = some ⟨new, []⟩) :
    insertAll coercion name (rows.map old.read) db = .ok (db.set name ⟨new, rows.map old.read⟩) ∧
      Agree old.names rows (rows.map old.read) := by
  have agree : Agree old.names rows (rows.map old.read) :=
    List.forall₂_map_right_iff.mpr (List.forall₂_same.mpr fun row _ name listed => if_pos listed)
  have null : ∀ row ∈ rows.map old.read, ∀ name ∈ new.names, name ∉ old.names → row name = .null := by
    intro row mem name _ unlisted
    obtain ⟨saved, _, rfl⟩ := List.mem_map.mp mem
    exact if_neg unlisted
  have kept : (rows.map old.read).map (new.stored coercion) = rows.map old.read := by
    rw [List.map_map]
    exact List.map_congr_left fun row mem => widens.stored_read coercion (meets.admitted row mem)
  have together : new.Meets ([] ++ (rows.map old.read).map (new.stored coercion)) := by
    rw [kept]
    exact widens.meets agree null meets
  have inserted := insertAll_of_meets coercion found alone together
  simp only [kept, List.nil_append] at inserted
  exact ⟨inserted, agree⟩

end TalentTrust.Lib.Sqlite
