import TalentTrust.Audit.SqliteRepository

/-!
The two repositories of the audit log behind one interface: `audit/repository.ts`.

Both answer from the list of entries that pass the filters of a query. One more
entry changes the answer of `query` iff it falls into its window, and that of
`queryWithCursor` iff it falls into the page or is the first after it, or the
cursor of the page names it (`query_append_iff`, `queryWithCursor_append_iff`).
-/

namespace TalentTrust.Audit

open TalentTrust.Lib

inductive Repository where
  | memory (store : AuditStore)
  | sqlite (table : AuditTable)

namespace Repository

def append (sha256 : String → List UInt8) (r : Repository) (input : CreateAuditEntryInput) (draw : Draw) :
    Except String AuditEntry × Repository :=
  match r with
  | .memory store => ((store.append sha256 input draw).1, .memory (store.append sha256 input draw).2)
  | .sqlite table => ((table.append sha256 input draw).1, .sqlite (table.append sha256 input draw).2)

def getById : Repository → String → Option AuditEntry
  | .memory store, id => store.getById id
  | .sqlite table, id => table.getById id

def query : Repository → AuditQuery → Except String (List AuditEntry)
  | .memory store, q => .ok (store.query q)
  | .sqlite table, q => table.query q

def queryWithCursor (repair : List UInt8 → String) (coerce : Option Json → Option (Option String)) :
    Repository → AuditQuery → Except String AuditQueryResult
  | .memory store, q => .ok (store.queryWithCursor repair q)
  | .sqlite table, q => table.queryWithCursor repair coerce q

/-! ### What the answers are made of -/

def entries : Repository → List AuditEntry
  | .memory store => store.log
  | .sqlite table => table.rows.map toAuditEntry

/-- The order in which timestamps are compared. -/
def order : Repository → String → String → Bool
  | .memory _ => codeUnitLe
  | .sqlite _ => AuditTable.byteLe

def found (r : Repository) (filters : AuditFilters) : List AuditEntry :=
  r.entries.filter (filters.matches r.order)

/-- The id that the cursor of a query names. -/
def cursorId (repair : List UInt8 → String) (coerce : Option Json → Option (Option String)) :
    Repository → AuditQuery → Except String (Option String)
  | .memory _, q => .ok (Audit.cursorId repair q)
  | .sqlite _, q => AuditTable.cursorId repair coerce q

/-- Where the page after the entry with this id starts. -/
def positionAfter (r : Repository) (filters : AuditFilters) (id : Option String) : Nat :=
  match r with
  | .memory store =>
    ((id.bind fun id => store.log.findIdx? fun entry => entry.id = id).map (· + 1)).getD 0
  | .sqlite table => table.position filters (table.seqOf id)

/-- The part of the entries found that `query` returns. -/
def window (q : AuditQuery) (found : List AuditEntry) : List AuditEntry :=
  match q.limit with
  | none => found.drop (max (q.offset.getD 0) 0).toNat
  | some limit => (found.drop (max (q.offset.getD 0) 0).toNat).take (max limit 0).toNat

section

variable {repair : List UInt8 → String} {coerce : Option Json → Option (Option String)}
  (table : AuditTable)

theorem found_sqlite (filters : AuditFilters) :
    (sqlite table).found filters = (table.matchingRows filters).map toAuditEntry :=
  List.filter_map

theorem select_eq (q : AuditQuery) :
    table.select q = window q ((sqlite table).found q.toAuditFilters) := by
  rw [found_sqlite, AuditTable.select, window]
  cases q.limit with
  | none => exact List.map_drop
  | some limit => rw [List.map_take, List.map_drop]

/-- A repository that answers a query at all answers with its window, and so does every other
one of its kind. -/
theorem query_eq {r : Repository} {q : AuditQuery} {entries : List AuditEntry} (answered : r.query q = .ok entries) :
    entries = window q (r.found q.toAuditFilters) := by
  cases r with
  | memory store => exact (Except.ok.inj answered).symm
  | sqlite table =>
    rw [query, AuditTable.query] at answered
    split at answered
    · rw [← select_eq, Except.ok.inj answered]
    · cases answered

theorem queryWithCursor_eq (r : Repository) (q : AuditQuery) :
    r.queryWithCursor repair coerce q = (r.cursorId repair coerce q).map fun id =>
      pageAt q (r.found q.toAuditFilters) (r.positionAfter q.toAuditFilters id) := by
  cases r with
  | memory store =>
    change Except.ok (pageAt q _ (startIndex repair store.log q)) = Except.ok (pageAt q _ _)
    unfold startIndex
    cases Audit.cursorId repair q with
    | none | some id => rfl
  | sqlite table =>
    rw [queryWithCursor, AuditTable.queryWithCursor_eq, found_sqlite, AuditTable.startSeq, cursorId]
    cases AuditTable.cursorId repair coerce q with
    | error message | ok id => rfl

/-! ### One more entry -/

/-- What an `append` that returned `entry` has done. -/
structure Appended (r r' : Repository) (entry : AuditEntry) : Prop where
  order : r'.order = r.order
  entries : ∃ stored : AuditEntry, r'.entries = r.entries ++ [stored] ∧
    ∀ (filters : AuditFilters) (le : String → String → Bool),
      filters.matches le stored = filters.matches le entry
  cursorId : ∀ repair coerce q, r'.cursorId repair coerce q = r.cursorId repair coerce q
  /-- A page whose cursor names the new entry starts after all entries. -/
  named : entry.id ∉ r.entries.map (·.id) → ∀ filters, r.positionAfter filters (some entry.id) = 0 ∧
    (r'.found filters).length ≤ r'.positionAfter filters (some entry.id)
  unnamed : ∀ filters id, ¬ (id = some entry.id ∧ entry.id ∉ r.entries.map (·.id)) →
    r'.positionAfter filters id = r.positionAfter filters id
  getById : ∀ {id e}, r.getById id = some e → r'.getById id = some e
  /-- Both take the same queries. -/
  answers : ∀ {q entries}, r.query q = .ok entries → ∃ entries', r'.query q = .ok entries'

theorem appended_memory (store : AuditStore) (entry : AuditEntry) (guard : Bool) :
    Appended (.memory store) (.memory ⟨store.log ++ [entry], guard⟩) entry where
  order := rfl
  entries := ⟨entry, rfl, fun _ _ => rfl⟩
  cursorId _ _ _ := rfl
  named fresh filters := by
    have absent : (store.log.findIdx? fun e => e.id = entry.id) = none := by
      rw [List.findIdx?_eq_none_iff]
      intro e mem
      exact decide_eq_false fun same => fresh (List.mem_map.mpr ⟨e, mem, same⟩)
    have size : ((memory ⟨store.log ++ [entry], guard⟩).found filters).length ≤ store.log.length + 1 :=
      (List.length_filter_le _ _).trans (by simp [Repository.entries])
    refine ⟨by simp [positionAfter, absent], size.trans ?_⟩
    simp [positionAfter, absent]
  unnamed filters id other := by
    cases id with
    | none => rfl
    | some id =>
      simp only [positionAfter, Option.bind_some, List.findIdx?_append]
      cases position : store.log.findIdx? fun e => e.id = id with
      | some i => rfl
      | none =>
        have absent : ∀ e ∈ store.log, e.id ≠ id := by
          simpa using position
        have different : entry.id ≠ id := by
          rintro rfl
          refine other ⟨rfl, fun mem => ?_⟩
          obtain ⟨e, inLog, same⟩ := List.mem_map.mp mem
          exact absent e inLog same
        simp [List.findIdx?_cons, different]
  getById {id e} before := by
    change (store.log ++ [entry]).find? (fun e => e.id = id) = some e
    have before' : store.log.find? (fun e => e.id = id) = some e := before
    rw [List.find?_append, before']
    rfl
  answers _ := ⟨_, rfl⟩

theorem seqOf_insert (entry : AuditEntry) (fresh : entry.id ∉ table.rows.map (·.id))
    (id : Option String) :
    (table.insert entry fresh).seqOf id =
      if id = some entry.id then table.lastSeq + 1 else table.seqOf id := by
  cases id with
  | none => rfl
  | some id =>
    simp only [AuditTable.seqOf, AuditTable.insert, Option.bind_some, List.find?_append, Option.some.injEq]
    by_cases same : id = entry.id
    · subst same
      have absent : (table.rows.find? fun row => row.id = entry.id) = none := by
        rw [List.find?_eq_none]
        intro row mem
        simpa using fun same => fresh (List.mem_map.mpr ⟨row, mem, same⟩)
      rw [absent]
      simp [toAuditRow]
    · have different : ([toAuditRow (table.lastSeq + 1) entry].find? fun row => row.id = id) = none := by
        simp [toAuditRow, Ne.symm same]
      rw [different, Option.or_none, if_neg same]

theorem seqOf_le (id : Option String) : table.seqOf id ≤ table.lastSeq := by
  unfold AuditTable.seqOf
  cases selected : id.bind fun id => table.rows.find? fun row => row.id = id with
  | none => exact Nat.zero_le _
  | some row =>
    obtain ⟨id', -, atId⟩ := Option.bind_eq_some_iff.mp selected
    exact table.seq_drawn row (List.mem_of_find?_eq_some atId)

theorem matchingRows_insert (entry : AuditEntry) (fresh : entry.id ∉ table.rows.map (·.id))
    (filters : AuditFilters) :
    (table.insert entry fresh).matchingRows filters = table.matchingRows filters ++
      [toAuditRow (table.lastSeq + 1) entry].filter
        fun row => filters.matches AuditTable.byteLe (toAuditEntry row) :=
  List.filter_append _ _

theorem seqOf_of_fresh {table : AuditTable} {entry : AuditEntry}
    (fresh : entry.id ∉ table.rows.map (·.id)) : table.seqOf (some entry.id) = 0 := by
  have nowhere : (table.rows.find? fun row => row.id = entry.id) = none := by
    rw [List.find?_eq_none]
    intro row mem
    simpa using fun same => fresh (List.mem_map.mpr ⟨row, mem, same⟩)
  rw [AuditTable.seqOf, Option.bind_some, nowhere]
  rfl

theorem positionAfter_insert_of_ne {table : AuditTable} {entry : AuditEntry}
    (fresh : entry.id ∉ table.rows.map (·.id)) {id : Option String} (different : id ≠ some entry.id)
    (filters : AuditFilters) :
    positionAfter (.sqlite (table.insert entry fresh)) filters id =
      positionAfter (.sqlite table) filters id := by
  have before : table.seqOf id < table.lastSeq + 1 := Nat.lt_succ_of_le (seqOf_le table id)
  have notAfter : [toAuditRow (table.lastSeq + 1) entry].countP
      (fun row => !(table.seqOf id = 0 || table.seqOf id < row.seq)) = 0 := by
    rw [List.countP_eq_zero]
    intro row mem
    cases List.mem_singleton.mp mem
    simp [toAuditRow, before]
  rw [positionAfter, positionAfter, seqOf_insert, if_neg different, AuditTable.position,
    AuditTable.position, matchingRows_insert, List.countP_append]
  have filtered := List.Sublist.countP_le (p := fun row => !(table.seqOf id = 0 || table.seqOf id < row.seq))
    (List.filter_sublist (p := fun row => filters.matches AuditTable.byteLe (toAuditEntry row))
      (l := [toAuditRow (table.lastSeq + 1) entry]))
  omega

theorem appended_sqlite (entry : AuditEntry) (fresh : entry.id ∉ table.rows.map (·.id)) :
    Appended (.sqlite table) (.sqlite (table.insert entry fresh)) entry where
  order := rfl
  entries := by
    refine ⟨toAuditEntry (toAuditRow (table.lastSeq + 1) entry), ?_, ?_⟩
    · simp [Repository.entries, AuditTable.insert]
    · intro filters le
      rfl
  cursorId _ _ _ := rfl
  named _ filters := by
    constructor
    · simp [positionAfter, seqOf_of_fresh fresh, AuditTable.position]
    · rw [found_sqlite, List.length_map, positionAfter, seqOf_insert]
      refine (List.countP_eq_length.mpr ?_).ge
      intro row mem
      have drawn : row.seq ≤ table.lastSeq + 1 :=
        (table.insert entry fresh).seq_drawn row (List.mem_filter.mp mem).1
      simpa using drawn
  unnamed filters id other := by
    refine positionAfter_insert_of_ne fresh ?_ filters
    intro same
    refine other ⟨same, ?_⟩
    simpa [Repository.entries, toAuditEntry] using fresh
  getById {id e} before := by
    have before' : (table.rows.find? fun row => row.id = id).map toAuditEntry = some e := before
    obtain ⟨row, atId, rfl⟩ := Option.map_eq_some_iff.mp before'
    change ((table.rows ++ [toAuditRow (table.lastSeq + 1) entry]).find? fun row => row.id = id).map
      toAuditEntry = _
    rw [List.find?_append, atId]
    rfl
  answers {q entries} answered := by
    rw [query, AuditTable.query] at answered ⊢
    split at answered
    · exact ⟨_, if_pos ‹_›⟩
    · cases answered

/-- The repository takes an entry with this id. -/
def Accepts (r : Repository) (draw : Draw) : Prop :=
  match r with
  | .memory store => store.appendGuard = false
  | .sqlite table => draw.id ∉ table.rows.map (·.id)

/-- The entry that `append` makes, without its hashes. -/
def newEntry (input : CreateAuditEntryInput) (draw : Draw) : AuditEntry :=
  { toCreateAuditEntryInput := input
    id := draw.id
    timestamp := draw.timestamp
    previousHash := ""
    hash := "" }

variable {draw : Draw} {r : Repository}

theorem Appended.of_makeEntry {r' : Repository} {sha256 : String → List UInt8}
    {input : CreateAuditEntryInput} {previousHash : String}
    (appended : Appended r r' (makeEntry sha256 input draw previousHash)) :
    Appended r r' (newEntry input draw) := { appended with }

variable (sha256 : String → List UInt8) (input : CreateAuditEntryInput)

theorem append_of_accepts (accepts : r.Accepts draw) :
    ∃ entry, (r.append sha256 input draw).1 = .ok entry ∧
      Appended r (r.append sha256 input draw).2 (newEntry input draw) := by
  cases r with
  | memory store =>
    refine ⟨makeEntry sha256 input draw (lastHash store.log), ?_, ?_⟩
    · simp [append, AuditStore.append, show store.appendGuard = false from accepts]
    · rw [append, append_of_open sha256 accepts]
      exact (appended_memory store _ false).of_makeEntry
  | sqlite table =>
    have fresh : draw.id ∉ table.rows.map (·.id) := accepts
    rw [append, AuditTable.append_of_fresh sha256 input fresh]
    refine ⟨_, rfl, Appended.of_makeEntry (appended_sqlite table _ ?_)⟩
    exact fresh

theorem append_of_not_accepts (refuses : ¬ r.Accepts draw) :
    ∃ message, r.append sha256 input draw = (.error message, r) := by
  cases r with
  | memory store =>
    have guard : store.appendGuard = true := by simpa [Accepts] using refuses
    refine ⟨"AuditStore append re-entrancy detected", ?_⟩
    simp [append, AuditStore.append, guard]
  | sqlite table =>
    exact ⟨_, by rw [append, AuditTable.append_of_taken sha256 input refuses]⟩

/-! ### Which answers it changes -/

/-- The entry falls into the window of a query. -/
def AffectsQuery (r : Repository) (q : AuditQuery) (entry : AuditEntry) : Prop :=
  q.toAuditFilters.matches r.order entry = true ∧
    (max (q.offset.getD 0) 0).toNat ≤ (r.found q.toAuditFilters).length ∧
    ∀ limit, q.limit = some limit →
      (r.found q.toAuditFilters).length < (max (q.offset.getD 0) 0).toNat + (max limit 0).toNat

variable (repair coerce r) in
/-- The entry falls into the page of a query or is the first after it. If the
cursor names the entry, which was not there before, the page was the first one
and is now empty. -/
def AffectsPage (q : AuditQuery) (entry : AuditEntry) : Prop :=
  match r.cursorId repair coerce q with
  | .error _ => False
  | .ok id =>
    if id = some entry.id ∧ entry.id ∉ r.entries.map (·.id) then r.found q.toAuditFilters ≠ []
    else q.toAuditFilters.matches r.order entry = true ∧
      r.positionAfter q.toAuditFilters id ≤ (r.found q.toAuditFilters).length ∧
      (r.found q.toAuditFilters).length ≤ r.positionAfter q.toAuditFilters id + pageLimit q.limit

variable {r r' : Repository} {entry : AuditEntry}

theorem Appended.found (appended : Appended r r' entry) (filters : AuditFilters) :
    ∃ stored, r'.found filters =
      if filters.matches r.order entry then r.found filters ++ [stored] else r.found filters := by
  obtain ⟨stored, added, same⟩ := appended.entries
  refine ⟨stored, ?_⟩
  rw [Repository.found, appended.order, added, List.filter_append, List.filter_singleton, same]
  by_cases passes : filters.matches r.order entry = true
  · simp [passes, Repository.found]
  · simp [passes, Repository.found]

theorem window_append_singleton_iff (q : AuditQuery) (found : List AuditEntry) (stored : AuditEntry) :
    window q (found ++ [stored]) = window q found ↔
      ¬ ((max (q.offset.getD 0) 0).toNat ≤ found.length ∧ ∀ limit, q.limit = some limit →
        found.length < (max (q.offset.getD 0) 0).toNat + (max limit 0).toNat) := by
  unfold window
  generalize (max (q.offset.getD 0) 0).toNat = offset
  cases q.limit with
  | none => simpa using drop_append_singleton
  | some limit =>
    rw [window_append_singleton]
    simp

variable (appended : Appended r r' entry) (q : AuditQuery)

include appended q

theorem query_append_iff {before : List AuditEntry} (answered : r.query q = .ok before) :
    r'.query q = r.query q ↔ ¬ r.AffectsQuery q entry := by
  obtain ⟨stored, found⟩ := appended.found q.toAuditFilters
  obtain ⟨after, again⟩ := appended.answers answered
  rw [answered, again, Except.ok.injEq, query_eq again, query_eq answered, found, AffectsQuery]
  by_cases passes : q.toAuditFilters.matches r.order entry = true
  · rw [if_pos passes, window_append_singleton_iff]
    simp [passes]
  · simp [passes]

theorem queryWithCursor_append_iff :
    r'.queryWithCursor repair coerce q = r.queryWithCursor repair coerce q ↔
      ¬ r.AffectsPage repair coerce q entry := by
  rw [queryWithCursor_eq, queryWithCursor_eq, appended.cursorId, AffectsPage]
  cases r.cursorId repair coerce q with
  | error message => simp [Except.map]
  | ok id =>
    simp only [Except.map, Except.ok.injEq]
    by_cases named : id = some entry.id ∧ entry.id ∉ r.entries.map (·.id)
    · obtain ⟨rfl, fresh⟩ := named
      obtain ⟨first, past⟩ := appended.named fresh q.toAuditFilters
      rw [if_pos ⟨rfl, fresh⟩, first, pageAt_of_le past, not_not]
      constructor
      · intro same
        have none' : [] = (r.found q.toAuditFilters).take (pageLimit q.limit) :=
          congrArg AuditQueryResult.entries same
        have positive := pageLimit_pos q.limit
        rcases List.take_eq_nil_iff.mp none'.symm with zero | empty
        · omega
        · exact empty
      · intro empty
        rw [empty, pageAt_of_le (Nat.le_refl 0)]
    · obtain ⟨stored, found⟩ := appended.found q.toAuditFilters
      rw [if_neg named, appended.unnamed _ _ named, found]
      by_cases passes : q.toAuditFilters.matches r.order entry = true
      · rw [if_pos passes, pageAt_append_singleton]
        simp [passes]
      · simp [passes]

end

end Repository

end TalentTrust.Audit
