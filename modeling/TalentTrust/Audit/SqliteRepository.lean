import TalentTrust.Audit.Store

/-!
The audit log in SQLite: `audit/sqliteRepository.ts`.

A row has a number `seq` that the database draws in increasing order. A cursor
names the last row of a page by its id, and the next page has the rows with a
greater number, so the pages make up the answer of `query` however many rows are
appended between them (`sqlite_cursor_walk_complete`).
-/

namespace TalentTrust.Audit

open TalentTrust.Lib

/-! ### The table -/

/-- The metadata stored in a row; `none` is not the text of an object. -/
def readMetadata (text : String) : Option (List (String × Json)) :=
  match Json.parse text with
  | some (.obj fields) => some fields
  | _ => none

theorem readMetadata_stringify (metadata : List (String × Json)) :
    (readMetadata (Json.obj metadata).stringify).isSome = true := by
  rw [readMetadata, Json.parse_stringify]
  rfl

structure AuditRow where
  seq : Nat
  id : String
  timestamp : String
  action : AuditAction
  severity : AuditSeverity
  actor : String
  resource : String
  resourceId : String
  metadataJson : String
  ipAddress : Option String
  correlationId : Option String
  hash : String
  previousHash : String
  readable : (readMetadata metadataJson).isSome = true
  deriving DecidableEq

def toAuditEntry (row : AuditRow) : AuditEntry :=
  { id := row.id
    timestamp := row.timestamp
    action := row.action
    severity := row.severity
    actor := row.actor
    resource := row.resource
    resourceId := row.resourceId
    metadata := (readMetadata row.metadataJson).get row.readable
    ipAddress := row.ipAddress
    correlationId := row.correlationId
    hash := row.hash
    previousHash := row.previousHash }

def toAuditRow (seq : Nat) (entry : AuditEntry) : AuditRow :=
  { seq
    id := entry.id
    timestamp := entry.timestamp
    action := entry.action
    severity := entry.severity
    actor := entry.actor
    resource := entry.resource
    resourceId := entry.resourceId
    metadataJson := (Json.obj entry.metadata).stringify
    ipAddress := entry.ipAddress
    correlationId := entry.correlationId
    hash := entry.hash
    previousHash := entry.previousHash
    readable := readMetadata_stringify entry.metadata }

/-- The table `audit_log_entries` in the order of `seq`. `lastSeq` is the number
drawn last; the fields after it are what `AUTOINCREMENT` and `UNIQUE` keep. -/
structure AuditTable where
  rows : List AuditRow
  lastSeq : Nat
  seq_positive : ∀ row ∈ rows, 0 < row.seq
  seq_drawn : ∀ row ∈ rows, row.seq ≤ lastSeq
  seq_increasing : rows.Pairwise fun row row' => row.seq < row'.seq
  ids_differ : (rows.map (·.id)).Nodup

namespace AuditTable

/-- The table that `initSchema` makes. -/
def empty : AuditTable where
  rows := []
  lastSeq := 0
  seq_positive := by simp
  seq_drawn := by simp
  seq_increasing := List.Pairwise.nil
  ids_differ := List.nodup_nil

/-- `INSERT` of an entry with a new id. -/
def insert (t : AuditTable) (entry : AuditEntry) (fresh : entry.id ∉ t.rows.map (·.id)) : AuditTable where
  rows := t.rows ++ [toAuditRow (t.lastSeq + 1) entry]
  lastSeq := t.lastSeq + 1
  seq_positive := by
    simp only [List.mem_append, List.mem_singleton]
    rintro row (old | rfl)
    · exact t.seq_positive row old
    · exact Nat.succ_pos _
  seq_drawn := by
    simp only [List.mem_append, List.mem_singleton]
    rintro row (old | rfl)
    · exact (t.seq_drawn row old).trans (Nat.le_succ _)
    · exact Nat.le_refl _
  seq_increasing := by
    rw [List.pairwise_append]
    refine ⟨t.seq_increasing, List.pairwise_singleton _ _, ?_⟩
    intro row old row' new
    cases List.mem_singleton.mp new
    exact Nat.lt_succ_of_le (t.seq_drawn row old)
  ids_differ := by
    rw [List.map_append]
    exact t.ids_differ.append (List.nodup_singleton _) (by simpa [toAuditRow] using fresh)

/-- `append`: one transaction. -/
def append (sha256 : String → List UInt8) (t : AuditTable) (input : CreateAuditEntryInput) (draw : Draw) :
    Except String AuditEntry × AuditTable :=
  let previousHash := (t.rows.getLast?.map (·.hash)).getD genesisHash
  let entry := makeEntry sha256 input draw previousHash
  if fresh : entry.id ∉ t.rows.map (·.id) then (.ok entry, t.insert entry fresh)
  else (.error "UNIQUE constraint failed: audit_log_entries.id", t)

variable (sha256 : String → List UInt8) (input : CreateAuditEntryInput) {t : AuditTable}

theorem append_of_fresh {draw : Draw} (fresh : draw.id ∉ t.rows.map (·.id)) :
    t.append sha256 input draw =
      (.ok (makeEntry sha256 input draw ((t.rows.getLast?.map (·.hash)).getD genesisHash)),
        t.insert (makeEntry sha256 input draw ((t.rows.getLast?.map (·.hash)).getD genesisHash)) fresh) :=
  dif_pos fresh

theorem append_of_taken {draw : Draw} (taken : ¬ draw.id ∉ t.rows.map (·.id)) :
    t.append sha256 input draw = (.error "UNIQUE constraint failed: audit_log_entries.id", t) :=
  dif_neg taken

theorem append_isPrefix (t : AuditTable) (call : CreateAuditEntryInput × Draw) :
    t.rows <+: (t.append sha256 call.1 call.2).2.rows := by
  by_cases fresh : call.2.id ∉ t.rows.map (·.id)
  · rw [append_of_fresh sha256 call.1 fresh]
    exact List.prefix_append _ _
  · rw [append_of_taken sha256 call.1 fresh]

/-! ### Queries -/

/-- The order of texts in SQLite: byte by byte. -/
def byteLe (s t : String) : Bool := lexLe ((utf8Bytes s).map (·.toNat)) ((utf8Bytes t).map (·.toNat))

variable (t : AuditTable)

/-- The rows for the conditions of a query: the columns are the fields of the entry. -/
def matchingRows (filters : AuditFilters) : List AuditRow :=
  t.rows.filter fun row => filters.matches byteLe (toAuditEntry row)

def getById (id : String) : Option AuditEntry :=
  (t.rows.find? fun row => row.id = id).map toAuditEntry

/-- What the statement of `buildQuerySql` selects. -/
def select (q : AuditQuery) : List AuditEntry :=
  let rest := (t.matchingRows q.toAuditFilters).drop (max (q.offset.getD 0) 0).toNat
  let rows :=
    match q.limit with
    | none => rest
    | some limit => rest.take (max limit 0).toNat
  rows.map toAuditEntry

def query (q : AuditQuery) : Except String (List AuditEntry) :=
  if q.InRange then .ok (t.select q) else .error "datatype mismatch"

/-- The rows that `buildCursorQuerySql` selects. -/
def selectAfter (filters : AuditFilters) (startIndex limit : Nat) : List AuditRow :=
  ((t.matchingRows filters).filter fun row => startIndex = 0 || startIndex < row.seq).take limit

/-- `SELECT seq FROM audit_log_entries WHERE id = ?`, and 0 for no row. -/
def seqOf (id : Option String) : Nat :=
  ((id.bind fun id => t.rows.find? fun row => row.id = id).map (·.seq)).getD 0

/-- The text bound to the parameter for `lastId`. What the driver does with a
value that is not a text is `coerce`: `none` throws, `some none` is `NULL`. -/
def boundId (coerce : Option Json → Option (Option String)) : Option Json → Option (Option String)
  | some (.str id) => some (some id)
  | value => coerce value

variable (repair : List UInt8 → String) (coerce : Option Json → Option (Option String))

/-- The id that the cursor of a query names; `none` is no row. Only the error for
other filters is thrown on, all others are caught. -/
def cursorId (q : AuditQuery) : Except String (Option String) :=
  match truthy q.cursor with
  | none => .ok none
  | some cursor =>
    match decodeCursor repair cursor with
    | none => .ok none
    | some data =>
      match boundId coerce (data.get? "lastId"), data.get? "filters" with
      | none, _ | _, none | _, some .null => .ok none
      | some id, some stored =>
        if sameFilters stored q.toAuditFilters then .ok id
        else .error "Cursor filters do not match query filters"

variable (t : AuditTable) (q : AuditQuery)

/-- The number after which a page starts. -/
def startSeq : Except String Nat :=
  (cursorId repair coerce q).map t.seqOf

def queryWithCursor : Except String AuditQueryResult :=
  (startSeq repair coerce t q).map fun startIndex =>
    let limit := pageLimit q.limit
    let entries := (t.selectAfter q.toAuditFilters startIndex limit).map toAuditEntry
    let nextCursor :=
      if entries.length = limit ∧ 0 < entries.length then
        let checkRows := t.selectAfter q.toAuditFilters startIndex (limit + 1)
        if limit < checkRows.length then
          entries.getLast?.map fun lastEntry =>
            encodeCursor ⟨lastEntry.id, lastEntry.timestamp, q.toAuditFilters⟩
        else none
      else none
    { entries, count := entries.length, limit, nextCursor }

section

variable {repair : List UInt8 → String} {coerce : Option Json → Option (Option String)}
  (t : AuditTable) (filters : AuditFilters) {limit : Option Int}

theorem select_filters :
    t.select { toAuditFilters := filters } = (t.matchingRows filters).map toAuditEntry := rfl

theorem matchingRows_increasing :
    (t.matchingRows filters).Pairwise fun row row' => row.seq < row'.seq :=
  t.seq_increasing.sublist List.filter_sublist

/-- How many of the matching rows are not after a number; 0 is before all. -/
def position (startIndex : Nat) : Nat :=
  (t.matchingRows filters).countP fun row => !(startIndex = 0 || startIndex < row.seq)

theorem selectAfter_eq (startIndex limit : Nat) :
    t.selectAfter filters startIndex limit =
      ((t.matchingRows filters).drop (t.position filters startIndex)).take limit := by
  have upward : (t.matchingRows filters).Pairwise fun row row' =>
      (startIndex = 0 || startIndex < row.seq) = true → (startIndex = 0 || startIndex < row'.seq) = true := by
    apply (t.matchingRows_increasing filters).imp
    intro row row' later
    simp only [Bool.or_eq_true, decide_eq_true_eq]
    omega
  rw [selectAfter, filter_eq_drop_countP upward, position]

variable {t filters}

theorem queryWithCursor_eq :
    t.queryWithCursor repair coerce q =
      (startSeq repair coerce t q).map fun startIndex =>
        pageAt q (t.select { toAuditFilters := q.toAuditFilters })
          (t.position q.toAuditFilters startIndex) := by
  unfold queryWithCursor
  congr 1
  funext startIndex
  simp only [selectAfter_eq, pageAt, select_filters, ← List.map_drop, ← List.map_take, List.length_map]
  generalize t.position q.toAuditFilters startIndex = start
  generalize t.matchingRows q.toAuditFilters = rows
  have positive := pageLimit_pos q.limit
  -- The page is full and there is one more row.
  by_cases more : start + pageLimit q.limit < rows.length
  · have full : ((rows.drop start).take (pageLimit q.limit)).length = pageLimit q.limit := by
      rw [List.length_take, List.length_drop]
      omega
    have checked : pageLimit q.limit < ((rows.drop start).take (pageLimit q.limit + 1)).length := by
      rw [List.length_take, List.length_drop]
      omega
    simp only [full, positive, and_self, if_true, checked, more]
  · have short : ¬ pageLimit q.limit < ((rows.drop start).take (pageLimit q.limit + 1)).length := by
      rw [List.length_take, List.length_drop]
      omega
    simp only [short, more, if_false, ite_self]

variable {row : AuditRow}

theorem seqOf_id (mem : row ∈ t.rows) : t.seqOf (some row.id) = row.seq := by
  have isSome : (t.rows.find? fun row' => row'.id = row.id).isSome = true :=
    List.find?_isSome.mpr ⟨row, mem, decide_eq_true rfl⟩
  obtain ⟨row', found⟩ := Option.isSome_iff_exists.mp isSome
  have named : row'.id = row.id := by simpa using List.find?_some found
  have same := List.inj_on_of_nodup_map t.ids_differ (List.mem_of_find?_eq_some found) mem named
  rw [seqOf, Option.bind_some, found, same]
  rfl

theorem startSeq_encodeCursor (mem : row ∈ t.rows) :
    startSeq repair coerce t
        { toAuditFilters := filters
          limit
          cursor := some (encodeCursor ⟨row.id, row.timestamp, filters⟩) } = .ok row.seq := by
  have isSet : truthy (some (encodeCursor ⟨row.id, row.timestamp, filters⟩)) =
      some (encodeCursor ⟨row.id, row.timestamp, filters⟩) := by
    simp [truthy, encodeCursor_ne_empty]
  have stored : (CursorData.toJson ⟨row.id, row.timestamp, filters⟩).get? "filters" =
      some (.obj (definedFields filters.fields)) := rfl
  have named : (CursorData.toJson ⟨row.id, row.timestamp, filters⟩).get? "lastId" =
      some (.str row.id) := rfl
  simp [startSeq, cursorId, isSet, decodeCursor_encodeCursor, stored, named, boundId, sameFilters_self, Except.map, seqOf_id mem]

end

/-! ### A walk through a table that grows between pages -/

/-- The table at the request for page `k`: a batch of entries is appended before
each page but the first. -/
def tableAt (batches : List (List (CreateAuditEntryInput × Draw))) (k : Nat) : AuditTable :=
  run (fun t call => (t.append sha256 call.1 call.2).2) t (batches.take k).flatten

/-- The page for a cursor, and the cursor for the next page. -/
def page (filters : AuditFilters) (limit : Option Int) (cursor : Option String) :
    Option (List AuditEntry × Option String) :=
  (t.queryWithCursor repair coerce { toAuditFilters := filters, limit, cursor }).toOption.map
    fun result => (result.entries, result.nextCursor)

/-- Follow the cursors from the first page on. -/
def cursorWalk (batches : List (List (CreateAuditEntryInput × Draw)))
    (filters : AuditFilters) (limit : Option Int) (fuel : Nat) : Option (Nat × List AuditEntry) :=
  walk (fun k cursor => (t.tableAt sha256 batches k).page repair coerce filters limit cursor) fuel 0 none

section

variable {repair : List UInt8 → String} {coerce : Option Json → Option (Option String)}
  {t : AuditTable} {filters : AuditFilters} {limit : Option Int} (sha256 : String → List UInt8)

theorem tableAt_growing (t : AuditTable) (batches : List (List (CreateAuditEntryInput × Draw)))
    (filters : AuditFilters) : Growing fun k => (t.tableAt sha256 batches k).matchingRows filters :=
  (growing_batches (append_isPrefix sha256) t batches).filter _

variable (repair coerce t filters limit) in
/-- The cursor leads to position `i` among the matching rows. -/
def LeadsTo (cursor : Option String) (i : Nat) : Prop :=
  ∃ startIndex, startSeq repair coerce t { toAuditFilters := filters, limit, cursor } = .ok startIndex ∧
    t.position filters startIndex = i

variable {cursor : Option String}

theorem page_eq {i : Nat} (leads : LeadsTo repair coerce t filters limit cursor i) :
    t.page repair coerce filters limit cursor =
      some (((t.select { toAuditFilters := filters }).drop i).take (pageLimit limit),
        (pageAt { toAuditFilters := filters, limit, cursor }
          (t.select { toAuditFilters := filters }) i).nextCursor) := by
  obtain ⟨startIndex, starts, rfl⟩ := leads
  rw [page, queryWithCursor_eq, starts]
  rfl

/-- The cursor at the end of a page leads to that end in any later table. -/
theorem page_of_more {t' : AuditTable} (grown : t.matchingRows filters <+: t'.matchingRows filters)
    {i : Nat} (leads : LeadsTo repair coerce t filters limit cursor i)
    (more : i + pageLimit limit < (t.select { toAuditFilters := filters }).length) :
    ∃ next, t.page repair coerce filters limit cursor =
        some (((t.select { toAuditFilters := filters }).drop i).take (pageLimit limit), some next) ∧
      LeadsTo repair coerce t' filters limit (some next) (i + pageLimit limit) := by
  have positive := pageLimit_pos limit
  obtain ⟨lastEntry, found, next⟩ :=
    pageAt_nextCursor_of_lt (q := { toAuditFilters := filters, limit, cursor }) more
  rw [select_filters, List.getElem?_map] at found
  obtain ⟨row, atEnd, rfl⟩ := Option.map_eq_some_iff.mp found
  have atEnd' := getElem?_of_isPrefix grown atEnd
  have mem : row ∈ t'.rows := (List.mem_filter.mp (List.mem_of_getElem? atEnd')).1
  refine ⟨encodeCursor ⟨row.id, row.timestamp, filters⟩, ?_, row.seq, startSeq_encodeCursor mem, ?_⟩
  · rw [page_eq leads, next]
    rfl
  · have numbered := t'.seq_positive row mem
    have counted := countP_key_le (t'.matchingRows_increasing filters) atEnd'
    rw [show i + pageLimit limit = i + pageLimit limit - 1 + 1 by omega, ← counted, position]
    congr 1
    funext row'
    simp [Nat.ne_of_gt numbered, ← decide_not]

theorem contiguous_leadsTo (repair : List UInt8 → String)
    (coerce : Option Json → Option (Option String)) (t : AuditTable)
    (batches : List (List (CreateAuditEntryInput × Draw))) (filters : AuditFilters)
    (limit : Option Int) :
    Contiguous (fun k cursor => (t.tableAt sha256 batches k).page repair coerce filters limit cursor)
      (fun k => (t.tableAt sha256 batches k).select { toAuditFilters := filters }) (pageLimit limit)
      (fun k cursor i => LeadsTo repair coerce (t.tableAt sha256 batches k) filters limit cursor i) where
  first := ⟨0, rfl, by simp [position]⟩
  last {k cursor i} leads short := by
    rw [page_eq leads, pageAt_nextCursor_of_le (q := { toAuditFilters := filters, limit, cursor }) short]
  more {k cursor i} leads more := page_of_more ((tableAt_growing sha256 t batches filters).grows k) leads more

theorem walk_of_batches (repair : List UInt8 → String)
    (coerce : Option Json → Option (Option String)) (t : AuditTable)
    (batches : List (List (CreateAuditEntryInput × Draw))) (filters : AuditFilters)
    (limit : Option Int) :
    ∃ fuel n, t.cursorWalk sha256 repair coerce batches filters limit fuel =
      some (n, (t.tableAt sha256 batches n).select { toAuditFilters := filters }) :=
  walk_complete ((tableAt_growing sha256 t batches filters).map toAuditEntry) (pageLimit_pos limit)
    (contiguous_leadsTo sha256 repair coerce t batches filters limit)

/-- Following the cursors through a table that grows between the pages, with a limit that is an
integer or absent, returns the rows that match the filters at the last page, in the order of
`seq`. If nothing is appended, that is what `query` returns at the start. -/
theorem sqlite_cursor_walk_complete (sha256 : String → List UInt8) (repair : List UInt8 → String)
    (coerce : Option Json → Option (Option String)) (t : AuditTable)
    (batches : List (List (CreateAuditEntryInput × Draw))) (filters : AuditFilters)
    (limit : Option Int) :
    (∃ fuel n, ∃ rows : List AuditRow,
      t.cursorWalk sha256 repair coerce batches filters limit fuel = some (n, rows.map toAuditEntry) ∧
      rows.Pairwise (fun row row' => row.seq < row'.seq) ∧
      ∀ row, row ∈ rows ↔ row ∈ (t.tableAt sha256 batches n).rows ∧
        filters.matches byteLe (toAuditEntry row) = true) ∧
    ∃ fuel n entries, t.query { toAuditFilters := filters } = .ok entries ∧
      t.cursorWalk sha256 repair coerce [] filters limit fuel = some (n, entries) := by
  obtain ⟨fuel, n, walked⟩ := walk_of_batches sha256 repair coerce t batches filters limit
  obtain ⟨fuel', n', walked'⟩ := walk_of_batches sha256 repair coerce t [] filters limit
  have unchanged : t.tableAt sha256 [] n' = t := by
    rw [tableAt, List.take_nil, List.flatten_nil, run_nil]
  rw [unchanged] at walked'
  refine ⟨⟨fuel, n, (t.tableAt sha256 batches n).matchingRows filters, walked, ?_, ?_⟩,
    fuel', n', _, if_pos ⟨by simp, by simp⟩, walked'⟩
  · exact (t.tableAt sha256 batches n).matchingRows_increasing filters
  · exact fun row => List.mem_filter

/-- Two logins, one on a page. -/
theorem sqlite_cursor_walk_complete_logins :
    let table := empty.tableAt utf8Bytes [loginCalls] 1
    ∃ fuel n entries, table.query { actor := some "alice" } = .ok entries ∧
      table.cursorWalk utf8Bytes (fun _ => "") (fun _ => none) [] { actor := some "alice" } (some 1)
        fuel = some (n, entries) ∧ entries.map (·.id) = ["e-1", "e-2"] := by
  intro table
  obtain ⟨fuel, n, entries, queried, walked⟩ := (sqlite_cursor_walk_complete utf8Bytes (fun _ => "")
    (fun _ => none) table [] { actor := some "alice" } (some 1)).2
  refine ⟨fuel, n, entries, queried, walked, ?_⟩
  have ids : (table.query { actor := some "alice" }).map (List.map (·.id)) = .ok ["e-1", "e-2"] := by
    decide +kernel
  rw [queried] at ids
  exact Except.ok.inj ids

end

/-! ### Limits that are not integers -/

/-- The value for `LIMIT` if the limit is any number: SQLite takes integers only. -/
def boundLimit (limit : ℚ) : Except String Nat :=
  let clamped := min (max limit 1) 100
  if clamped.den = 1 then .ok clamped.num.toNat else .error "datatype mismatch"

/-- `queryWithCursor` with any number for a limit. -/
def queryWithCursorFor (limit : ℚ) : Except String AuditQueryResult :=
  (startSeq repair coerce t q).bind fun _ => (boundLimit limit).bind fun limit =>
    t.queryWithCursor repair coerce { q with limit := some limit }

theorem boundLimit_int (n : Int) : boundLimit n = .ok (pageLimit (some n)) := by
  have clamped : min (max (n : ℚ) 1) 100 = ((min (max n 1) 100 : Int) : ℚ) := by push_cast; rfl
  simp only [boundLimit, clamped, Rat.den_intCast, Rat.num_intCast, if_true]
  rfl

theorem queryWithCursorFor_int (n : Int) :
    t.queryWithCursorFor repair coerce q n = t.queryWithCursor repair coerce { q with limit := some n } := by
  have clamped : pageLimit (some (pageLimit (some n) : Int)) = pageLimit (some n) := by
    unfold pageLimit
    simp only [Option.getD_some]
    omega
  have starts : startSeq repair coerce t { q with limit := some n } = startSeq repair coerce t q := rfl
  rw [queryWithCursorFor, boundLimit_int]
  cases found : startSeq repair coerce t q with
  | error message =>
    rw [queryWithCursor, starts, found]
    rfl
  | ok startIndex =>
    change t.queryWithCursor repair coerce { q with limit := some (pageLimit (some n) : Int) } = _
    simp only [queryWithCursor, clamped]
    rfl

/-- A limit of 1.5 makes the database refuse the statement of the first page. -/
theorem fractional_limit_refused :
    (empty.tableAt utf8Bytes [loginCalls] 1).queryWithCursorFor (fun _ => "") (fun _ => none) {} (3 / 2) =
      .error "datatype mismatch" := by
  decide +kernel

end AuditTable

end TalentTrust.Audit
