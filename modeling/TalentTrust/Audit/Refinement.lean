import TalentTrust.Audit.Repository
import TalentTrust.Lib.Collation

/-!
The repository in SQLite against the one in memory.

`buildQuerySql` pushes a condition and its parameter side by side, and the page at the end, so
every placeholder gets the value that was meant for it (`lined_buildWhere`), and the statement
selects the entries that the filters of the query let through (`querySql_eq`). A row reads back
as the entry that was written, so both repositories hold the same entries with the same hashes,
and give the same answers (`sqlite_refines_memory`).

The driver binds a number as a floating-point value. As the value of `LIMIT` or `OFFSET` it has
to be a whole number of 64 bits; a page beyond that is an error in SQLite, and empty or
everything in memory (`limit_out_of_range`).
-/

namespace TalentTrust.Audit

open TalentTrust.Lib

/-! ### The statement -/

inductive Column where
  | action
  | severity
  | actor
  | resource
  | resourceId
  | timestamp
  deriving DecidableEq, Repr

inductive Comparison where
  | equal
  | atLeast
  | atMost
  deriving DecidableEq, Repr

/-- A condition `column = ?`, `column >= ?` or `column <= ?`. -/
structure Condition where
  column : Column
  comparison : Comparison
  deriving DecidableEq

inductive Pagination where
  | absent
  /-- `LIMIT ? OFFSET ?`. -/
  | limitOffset
  /-- `LIMIT -1 OFFSET ?`. -/
  | offset
  deriving DecidableEq, Repr

/-- `SELECT … FROM audit_log_entries WHERE … AND … ORDER BY seq ASC …`. -/
structure SelectSql where
  conditions : List Condition
  pagination : Pagination
  deriving DecidableEq

inductive Param where
  | text (s : String)
  | number (n : Int)
  deriving DecidableEq

/-- `where.push(…)` and `params.push(value)`, if the filter is set. -/
def pushCondition (condition : Condition) (value : Option String)
    (built : List Condition × List Param) : List Condition × List Param :=
  match value with
  | none => built
  | some value => (built.1 ++ [condition], built.2 ++ [.text value])

/-- The conditions of `buildQuerySql` and their parameters. -/
def buildWhere (filters : AuditFilters) : List Condition × List Param :=
  let built := ([], [])
  let built := pushCondition ⟨.action, .equal⟩ (filters.action.map (·.text)) built
  let built := pushCondition ⟨.severity, .equal⟩ (filters.severity.map (·.text)) built
  let built := pushCondition ⟨.actor, .equal⟩ (truthy filters.actor) built
  let built := pushCondition ⟨.resource, .equal⟩ (truthy filters.resource) built
  let built := pushCondition ⟨.resourceId, .equal⟩ (truthy filters.resourceId) built
  let built := pushCondition ⟨.timestamp, .atLeast⟩ (truthy filters.fromTime) built
  pushCondition ⟨.timestamp, .atMost⟩ (truthy filters.toTime) built

def buildQuerySql (q : AuditQuery) : SelectSql × List Param :=
  let (conditions, params) := buildWhere q.toAuditFilters
  let offset := max (q.offset.getD 0) 0
  match q.limit with
  | some limit => (⟨conditions, .limitOffset⟩, params ++ [.number (max limit 0), .number offset])
  | none =>
    if 0 < offset then (⟨conditions, .offset⟩, params ++ [.number offset])
    else (⟨conditions, .absent⟩, params)

/-! ### The database -/

def Pagination.placeholders : Pagination → Nat
  | .absent => 0
  | .limitOffset => 2
  | .offset => 1

def SelectSql.placeholders (sql : SelectSql) : Nat :=
  sql.conditions.length + sql.pagination.placeholders

def AuditRow.text (row : AuditRow) : Column → String
  | .action => row.action.text
  | .severity => row.severity.text
  | .actor => row.actor
  | .resource => row.resource
  | .resourceId => row.resourceId
  | .timestamp => row.timestamp

/-- A condition with its parameter, on a row. -/
def Condition.holds (condition : Condition) (row : AuditRow) : Param → Bool
  | .text value =>
    match condition.comparison with
    | .equal => row.text condition.column = value
    | .atLeast => AuditTable.byteLe value (row.text condition.column)
    | .atMost => AuditTable.byteLe (row.text condition.column) value
  -- No condition of `buildQuerySql` is given a number.
  | .number _ => false

/-- The value of `LIMIT` or `OFFSET`. -/
def toInteger : Param → Except String Int
  | .number n => if n.natAbs < 2 ^ 63 then .ok n else .error "datatype mismatch"
  | .text _ => .error "datatype mismatch"

/-- `LIMIT limit OFFSET offset`: a negative limit is none. -/
def limitRows (limit offset : Int) (rows : List AuditRow) : List AuditRow :=
  if limit < 0 then rows.drop offset.toNat else (rows.drop offset.toNat).take limit.toNat

/-- The page of the selected rows, by the parameters that the conditions have left. -/
def selectPage (rows : List AuditRow) : Pagination → List Param → Except String (List AuditRow)
  | .limitOffset, [limit, offset] => do
      let limit ← toInteger limit
      let offset ← toInteger offset
      return limitRows limit offset rows
  | .offset, [offset] => do
      let offset ← toInteger offset
      return limitRows (-1) offset rows
  | _, _ => .ok rows

namespace AuditTable

variable (t : AuditTable)

/-- `db.prepare(sql).all(...params)`: the parameters are bound to the placeholders in their
order. -/
def execute (sql : SelectSql) (params : List Param) : Except String (List AuditRow) :=
  if params.length < sql.placeholders then .error "Too few parameter values were provided"
  else if sql.placeholders < params.length then .error "Too many parameter values were provided"
  else
    let rows := t.rows.filter fun row => (sql.conditions.zip params).all fun c => c.1.holds row c.2
    selectPage rows sql.pagination (params.drop sql.conditions.length)

/-- `query`, by way of its statement. -/
def querySql (q : AuditQuery) : Except String (List AuditEntry) :=
  let (sql, params) := buildQuerySql q
  (t.execute sql params).map fun rows => rows.map toAuditEntry

def stream (q : AuditQuery) : Except String (List AuditEntry) :=
  let (sql, params) := buildQuerySql q
  (t.execute sql params).map fun rows => rows.map toAuditEntry

variable (sha256 : String → List UInt8) (t : AuditTable)

def verifyIntegrity (checkedAt : String) : IntegrityReport :=
  if t.rows.length = 0 then { valid := true, totalEntries := 0, checkedAt }
  else Audit.verifyIntegrity sha256 (t.rows.map toAuditEntry) checkedAt

def appendAll (calls : List (CreateAuditEntryInput × Draw)) : AuditTable :=
  run (fun t call => (t.append sha256 call.1 call.2).2) t calls

end AuditTable

/-! ### Placeholders and parameters line up -/

/-- There is a parameter for every condition, and together they say whether a row passes. -/
structure Lined (row : AuditRow) (built : List Condition × List Param) (passes : Bool) : Prop where
  length : built.1.length = built.2.length
  holds : ((built.1.zip built.2).all fun c => c.1.holds row c.2) = passes

theorem Lined.push {row : AuditRow} {built : List Condition × List Param} {passes : Bool}
    (lined : Lined row built passes) (condition : Condition) (value : Option String) :
    Lined row (pushCondition condition value built)
      (passes && value.all fun value => condition.holds row (.text value)) := by
  cases value with
  | none => simpa [pushCondition] using lined
  | some value =>
    constructor
    · simp [pushCondition, lined.length]
    · simp [pushCondition, List.zip_append lined.length, lined.holds]

variable (row : AuditRow) (filters : AuditFilters)

theorem holds_action (asked : Option AuditAction) :
    ((asked.map (·.text)).all fun value => Condition.holds ⟨.action, .equal⟩ row (.text value)) =
      asked.all (row.action = ·) := by
  cases asked with
  | none => rfl
  | some asked =>
    exact decide_eq_decide.mpr ⟨AuditAction.text_injective, congrArg AuditAction.text⟩

theorem holds_severity (asked : Option AuditSeverity) :
    ((asked.map (·.text)).all fun value => Condition.holds ⟨.severity, .equal⟩ row (.text value)) =
      asked.all (row.severity = ·) := by
  cases asked with
  | none => rfl
  | some asked =>
    exact decide_eq_decide.mpr ⟨AuditSeverity.text_injective, congrArg AuditSeverity.text⟩

/-- For every set of filters, the conditions hold with their parameters on exactly the rows
that the filters let through. -/
theorem lined_buildWhere :
    Lined row (buildWhere filters) (filters.matches AuditTable.byteLe (toAuditEntry row)) := by
  have start : Lined row ([], []) true := ⟨rfl, rfl⟩
  have lined := ((((((start.push ⟨.action, .equal⟩ (filters.action.map (·.text))).push
    ⟨.severity, .equal⟩ (filters.severity.map (·.text))).push
    ⟨.actor, .equal⟩ (truthy filters.actor)).push
    ⟨.resource, .equal⟩ (truthy filters.resource)).push
    ⟨.resourceId, .equal⟩ (truthy filters.resourceId)).push
    ⟨.timestamp, .atLeast⟩ (truthy filters.fromTime)).push
    ⟨.timestamp, .atMost⟩ (truthy filters.toTime)
  rw [holds_action, holds_severity] at lined
  exact lined

/-! ### The statement selects what the query asks for -/

theorem toInteger_max {n : Int} (small : n < 2 ^ 63) : toInteger (.number (max n 0)) = .ok (max n 0) := by
  rw [toInteger, if_pos (by omega)]

theorem length_buildWhere : (buildWhere filters).1.length = (buildWhere filters).2.length := by
  -- Any row will do: the lengths do not depend on it.
  have some_row : AuditRow := toAuditRow 0
    { action := .adminAction, severity := .info, actor := "", resource := "", resourceId := ""
      metadata := [], ipAddress := none, correlationId := none, id := "", timestamp := ""
      previousHash := "", hash := "" }
  exact (lined_buildWhere some_row filters).length

namespace AuditTable

variable (t : AuditTable)

theorem filter_buildWhere (page : List Param) :
    (t.rows.filter fun row =>
      ((buildWhere filters).1.zip ((buildWhere filters).2 ++ page)).all fun c => c.1.holds row c.2) =
      t.matchingRows filters := by
  refine List.filter_congr fun row _ => ?_
  have lined := lined_buildWhere row filters
  have paired : (buildWhere filters).1.zip ((buildWhere filters).2 ++ page) =
      (buildWhere filters).1.zip (buildWhere filters).2 := by
    have split : ((buildWhere filters).1 ++ []).zip ((buildWhere filters).2 ++ page) =
        (buildWhere filters).1.zip (buildWhere filters).2 ++ List.zip [] page :=
      List.zip_append lined.length
    rwa [List.append_nil, List.zip_nil_left, List.append_nil] at split
  rw [paired, lined.holds]

/-- A statement with the conditions of the filters gets past the check of its parameters, and
the page is read from those that are left. -/
theorem execute_buildWhere (filters : AuditFilters) (pagination : Pagination) {page : List Param}
    (counted : page.length = pagination.placeholders) :
    t.execute ⟨(buildWhere filters).1, pagination⟩ ((buildWhere filters).2 ++ page) =
      selectPage (t.matchingRows filters) pagination page := by
  have length := length_buildWhere filters
  have enough : ((buildWhere filters).2 ++ page).length =
      SelectSql.placeholders ⟨(buildWhere filters).1, pagination⟩ := by
    rw [List.length_append, SelectSql.placeholders, length, counted]
  have rest : ((buildWhere filters).2 ++ page).drop (buildWhere filters).1.length = page := by
    rw [length, List.drop_left]
  simp only [execute]
  rw [if_neg enough.not_lt, if_neg enough.not_gt, rest, filter_buildWhere]

variable {q : AuditQuery}

theorem querySql_eq (inRange : q.InRange) : t.querySql q = .ok (t.select q) := by
  have offsetSmall : q.offset.getD 0 < 2 ^ 63 := by
    cases found : q.offset with
    | none => decide
    | some offset => exact inRange.offset offset found
  have offsetInt := toInteger_max offsetSmall
  cases limited : q.limit with
  | some limit =>
    have limitInt := toInteger_max (inRange.limit limit limited)
    have nonneg : ¬max limit 0 < 0 := by omega
    simp only [querySql, buildQuerySql, select, limited]
    rw [execute_buildWhere t q.toAuditFilters .limitOffset rfl]
    simp only [selectPage, limitInt, offsetInt, bind, Except.bind, pure, Except.pure,
      Except.map, limitRows, if_neg nonneg]
  | none =>
    by_cases positive : 0 < max (q.offset.getD 0) 0
    · simp only [querySql, buildQuerySql, select, limited, if_pos positive]
      rw [execute_buildWhere t q.toAuditFilters .offset rfl]
      simp only [selectPage, offsetInt, bind, Except.bind, pure, Except.pure, Except.map,
        limitRows]
      rw [if_pos (by decide)]
    · have zero : (max (q.offset.getD 0) 0).toNat = 0 := by omega
      have noPage : ([] : List Param).length = Pagination.absent.placeholders := rfl
      have whole := execute_buildWhere t q.toAuditFilters .absent noPage
      rw [List.append_nil] at whole
      simp only [querySql, buildQuerySql, select, limited, if_neg positive]
      rw [whole, zero]
      rfl

theorem stream_eq (inRange : q.InRange) : t.stream q = .ok (t.select q) :=
  t.querySql_eq inRange

end AuditTable

/-! ### A row reads back as its entry -/

variable {entry : AuditEntry}

theorem toAuditEntry_toAuditRow (seq : Nat) (value : Json.IsValue (.obj entry.metadata)) :
    toAuditEntry (toAuditRow seq entry) = entry := by
  have read : readMetadata (Json.obj entry.metadata).stringify = some entry.metadata := by
    rw [readMetadata, Json.parse_stringify, value.plain]
  have metadata : (toAuditEntry (toAuditRow seq entry)).metadata = entry.metadata := by
    simp [toAuditEntry, toAuditRow, read]
  simp only [toAuditEntry, toAuditRow] at metadata ⊢
  rw [metadata]

/-- Where timestamps are ASCII, both orders of texts give the same filters. -/
theorem matches_byteLe (ascii : IsAscii entry.timestamp.toList) :
    filters.matches AuditTable.byteLe entry = filters.matches codeUnitLe entry := by
  have lower : ∀ s, AuditTable.byteLe s entry.timestamp = codeUnitLe s entry.timestamp := by
    intro s
    rw [AuditTable.byteLe, map_utf8Bytes, map_utf8Bytes]
    exact lexLe_ascii_right aboveAscii_byteUnits aboveAscii_codeUnits ascii _
  have upper : ∀ s, AuditTable.byteLe entry.timestamp s = codeUnitLe entry.timestamp s := by
    intro s
    rw [AuditTable.byteLe, map_utf8Bytes, map_utf8Bytes]
    exact lexLe_ascii_left aboveAscii_byteUnits aboveAscii_codeUnits ascii _
  simp [AuditFilters.matches, lower, upper]

/-! ### Two repositories side by side -/

/-- The table holds the entries of the log, as they were written. -/
structure Mirrors (s : AuditStore) (t : AuditTable) : Prop where
  isOpen : s.appendGuard = false
  entries : t.rows.map toAuditEntry = s.log
  ascii : ∀ entry ∈ s.log, IsAscii entry.timestamp.toList

theorem mirrors_empty : Mirrors .empty .empty := ⟨rfl, rfl, fun _ mem => absurd mem List.not_mem_nil⟩

namespace Mirrors

variable {s : AuditStore} {t : AuditTable}

theorem ids (mirrors : Mirrors s t) : t.rows.map (·.id) = s.log.map (·.id) := by
  rw [← mirrors.entries, List.map_map]
  rfl

theorem lastHash_eq (mirrors : Mirrors s t) :
    (t.rows.getLast?.map (·.hash)).getD genesisHash = lastHash s.log := by
  rw [lastHash, tip, ← mirrors.entries, List.getLast?_map, Option.map_map]
  rfl

variable (sha256 : String → List UInt8) (mirrors : Mirrors s t)

include mirrors

/-- An `append` with a new id returns the same entry on both sides, and both keep it. -/
theorem append {input : CreateAuditEntryInput} {draw : Draw}
    (fresh : draw.id ∉ s.log.map (·.id)) (stamp : IsAscii draw.timestamp.toList)
    (value : Json.IsValue (.obj input.metadata)) :
    (s.append sha256 input draw).1 = (t.append sha256 input draw).1 ∧
      Mirrors (s.append sha256 input draw).2 (t.append sha256 input draw).2 := by
  have fresh' : draw.id ∉ t.rows.map (·.id) := mirrors.ids ▸ fresh
  have stepped := append_of_open sha256 mirrors.isOpen input draw
  rw [AuditTable.append_of_fresh sha256 input fresh', mirrors.lastHash_eq]
  refine ⟨?_, ?_⟩
  · rw [AuditStore.append, if_neg (by rw [mirrors.isOpen]; exact Bool.false_ne_true)]
  · rw [stepped]
    refine ⟨rfl, ?_, ?_⟩
    · have same : toAuditEntry (toAuditRow (t.lastSeq + 1)
          (makeEntry sha256 input draw (lastHash s.log))) =
          makeEntry sha256 input draw (lastHash s.log) := toAuditEntry_toAuditRow _ value
      change (t.rows ++ [_]).map toAuditEntry = _
      rw [List.map_append, mirrors.entries, List.map_singleton, same]
    · exact forall_mem_concat mirrors.ascii stamp

theorem appendAll {calls : List (CreateAuditEntryInput × Draw)}
    (fresh : ∀ call ∈ calls, call.2.id ∉ s.log.map (·.id)) (ids : (calls.map (·.2.id)).Nodup)
    (stamps : ∀ call ∈ calls, IsAscii call.2.timestamp.toList)
    (values : ∀ call ∈ calls, Json.IsValue (.obj call.1.metadata)) :
    answers (fun s call => s.append sha256 call.1 call.2) s calls =
        answers (fun t call => t.append sha256 call.1 call.2) t calls ∧
      Mirrors (Audit.appendAll sha256 s calls) (AuditTable.appendAll sha256 t calls) := by
  induction calls generalizing s t with
  | nil => exact ⟨rfl, mirrors⟩
  | cons call calls ih =>
    obtain ⟨new, others⟩ := List.forall_mem_cons.mp fresh
    obtain ⟨stamp, stamps⟩ := List.forall_mem_cons.mp stamps
    obtain ⟨value, values⟩ := List.forall_mem_cons.mp values
    obtain ⟨unused, distinct⟩ := List.nodup_cons.mp ids
    obtain ⟨same, mirrors'⟩ := mirrors.append sha256 new stamp value
    -- The ids still to come are neither in the log nor the one just used.
    have fresh' : ∀ later ∈ calls, later.2.id ∉ (s.append sha256 call.1 call.2).2.log.map (·.id) := by
      intro later mem
      rw [append_of_open sha256 mirrors.isOpen, List.map_append, List.mem_append, not_or]
      refine ⟨others later mem, ?_⟩
      intro inNew
      have used : later.2.id = call.2.id := List.mem_singleton.mp inNew
      exact unused (List.mem_map.mpr ⟨later, mem, used⟩)
    obtain ⟨sameRest, mirrorsRest⟩ := ih mirrors' fresh' distinct stamps values
    exact ⟨by rw [answers, answers, same, sameRest], mirrorsRest⟩

theorem select (q : AuditQuery) : t.select q = s.query q := by
  have found : (Repository.sqlite t).found q.toAuditFilters =
      (Repository.memory s).found q.toAuditFilters := by
    have entries : (Repository.sqlite t).entries = (Repository.memory s).entries := mirrors.entries
    rw [Repository.found, entries]
    exact List.filter_congr fun entry mem => matches_byteLe q.toAuditFilters (mirrors.ascii entry mem)
  rw [Repository.select_eq, found]
  rfl

theorem getById (id : String) : t.getById id = s.getById id := by
  rw [AuditStore.getById, ← mirrors.entries, List.find?_map]
  rfl

theorem verifyIntegrity {sha256 : String → List UInt8}
    (linked : Linked sha256 s.log) (checkedAt : String) :
    t.verifyIntegrity sha256 checkedAt =
      { valid := true, totalEntries := s.log.length, checkedAt } := by
  have size : t.rows.length = s.log.length := by rw [← mirrors.entries, List.length_map]
  rw [AuditTable.verifyIntegrity, size]
  split
  · rename_i empty
    rw [empty]
  · rw [mirrors.entries, verifyIntegrity_of_linked linked]

end Mirrors

/-- For every sequence of appends with the same ids and times on both sides, the repository in
SQLite returns what the one in memory returns: the entries with their hashes from `append`, and
the same entries in the same order from `query`, `stream` and `getById`, for every query whose
page is in the range of the database. `verifyIntegrity` reports the log as valid.
The ids are those of `randomUUID`, the times those of `toISOString`. -/
theorem sqlite_refines_memory (sha256 : String → List UInt8)
    (calls : List (CreateAuditEntryInput × Draw)) (ids : (calls.map (·.2.id)).Nodup)
    (stamps : ∀ call ∈ calls, IsAscii call.2.timestamp.toList)
    (values : ∀ call ∈ calls, Json.IsValue (.obj call.1.metadata)) :
    let store := appendAll sha256 .empty calls
    let table := AuditTable.appendAll sha256 .empty calls
    answers (fun s call => s.append sha256 call.1 call.2) AuditStore.empty calls =
        answers (fun t call => t.append sha256 call.1 call.2) AuditTable.empty calls ∧
      table.rows.map (·.hash) = store.log.map (·.hash) ∧
      (∀ q : AuditQuery, q.InRange →
        table.querySql q = .ok (store.query q) ∧ table.stream q = .ok (store.query q)) ∧
      (∀ id, table.getById id = store.getById id) ∧
      ∀ checkedAt, table.verifyIntegrity sha256 checkedAt =
        { valid := true, totalEntries := calls.length, checkedAt } := by
  intro store table
  have nothing : ∀ call ∈ calls, call.2.id ∉ AuditStore.empty.log.map (·.id) :=
    fun _ _ => List.not_mem_nil
  obtain ⟨same, mirrors⟩ := mirrors_empty.appendAll sha256 nothing ids stamps values
  have linked : Linked sha256 store.log := linked_appendAll (s := AuditStore.empty) trivial calls
  have size : store.log.length = calls.length := by
    obtain ⟨-, added, grown, drawn⟩ := appendAll_log sha256 (s := AuditStore.empty) rfl calls
    rw [grown]
    simpa [AuditStore.empty] using congrArg List.length drawn
  refine ⟨same, ?_, ?_, mirrors.getById, ?_⟩
  · rw [← mirrors.entries, List.map_map]
    rfl
  · intro q inRange
    exact ⟨by rw [table.querySql_eq inRange, mirrors.select], by rw [table.stream_eq inRange, mirrors.select]⟩
  · intro checkedAt
    rw [mirrors.verifyIntegrity linked, size]

/-- A limit of 2^63: the entries are returned from memory, and the database refuses the statement. -/
theorem limit_out_of_range :
    let q : AuditQuery := { limit := some (2 ^ 63) }
    ((appendAll utf8Bytes .empty loginCalls).query q).length = 2 ∧
      (AuditTable.appendAll utf8Bytes .empty loginCalls).querySql q = .error "datatype mismatch" := by
  refine ⟨by decide +kernel, rfl⟩

theorem sqlite_refines_memory_logins :
    let q : AuditQuery :=
      { actor := some "alice", fromTime := some "2026-01-01", limit := some 1, offset := some 1 }
    (AuditTable.appendAll utf8Bytes .empty loginCalls).querySql q =
        .ok ((appendAll utf8Bytes .empty loginCalls).query q) ∧
      ((appendAll utf8Bytes .empty loginCalls).query q).map (·.id) = ["e-2"] := by
  intro q
  have values : ∀ call ∈ loginCalls, Json.IsValue (.obj call.1.metadata) := by
    simp only [loginCalls, List.forall_mem_cons]
    have empty : Json.IsValue (.obj []) := Json.isValue_obj [] rfl (by decide) (by simp)
    exact ⟨empty, empty, by simp⟩
  have ascii : (loginCalls.all fun call => call.2.timestamp.toList.all fun c => c.toNat < 128) = true := by
    decide +kernel
  have stamps : ∀ call ∈ loginCalls, ∀ c ∈ call.2.timestamp.toList, c.toNat < 128 := by
    intro call mem c char
    exact of_decide_eq_true (List.all_eq_true.mp (List.all_eq_true.mp ascii call mem) c char)
  have refines := sqlite_refines_memory utf8Bytes loginCalls (by decide +kernel) stamps values
  have inRange : q.InRange := ⟨by decide, by decide⟩
  exact ⟨(refines.2.2.1 q inRange).1, by decide +kernel⟩

end TalentTrust.Audit
