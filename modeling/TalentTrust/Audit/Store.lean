import TalentTrust.Audit.Query
import TalentTrust.Lib.HashChain

/-!
The in-memory audit log: `audit/store.ts`.

Entries are appended to a log and linked by their hashes. `verifyIntegrity`
walks the log and reports the first entry whose link or own hash fails. Logs
made by `append` pass it; and since the hash of an entry determines the entry
and all before it, a log that was changed and still ends in the same hash does
not (`audit_log_tamper_evident`).
-/

namespace TalentTrust.Audit

open TalentTrust.Lib

/-! ### The store -/

structure AuditStore where
  log : List AuditEntry
  appendGuard : Bool := false
  deriving DecidableEq

def AuditStore.empty : AuditStore := ⟨[], false⟩

/-- What `append` draws: a random id, and the time. -/
structure Draw where
  id : String
  timestamp : String
  deriving DecidableEq

/-- The hash the next entry is linked to. -/
def lastHash (log : List AuditEntry) : String := tip AuditEntry.hash genesisHash log

/-- The entry made of an input, a draw and the hash before it. -/
def makeEntry (sha256 : String → List UInt8) (input : CreateAuditEntryInput) (draw : Draw)
    (previousHash : String) : AuditEntry :=
  let unhashed : UnhashedEntry :=
    { toCreateAuditEntryInput := input, id := draw.id, timestamp := draw.timestamp, previousHash }
  { toUnhashedEntry := unhashed, hash := computeEntryHash sha256 unhashed }

def AuditStore.append (sha256 : String → List UInt8) (s : AuditStore) (input : CreateAuditEntryInput)
    (draw : Draw) : Except String AuditEntry × AuditStore :=
  if s.appendGuard then (.error "AuditStore append re-entrancy detected", s)
  else
    let entry := makeEntry sha256 input draw (lastHash s.log)
    (.ok entry, { log := s.log ++ [entry], appendGuard := false })

def AuditStore.getById (s : AuditStore) (id : String) : Option AuditEntry :=
  s.log.find? fun entry => entry.id = id

def AuditStore.query (s : AuditStore) (q : AuditQuery) : List AuditEntry :=
  let results := s.log.filter (q.toAuditFilters.matches codeUnitLe)
  let rest := results.drop (max (q.offset.getD 0) 0).toNat
  match q.limit with
  | none => rest
  | some limit => rest.take (max limit 0).toNat

variable (repair : List UInt8 → String)

/-- The id that the cursor of a query names. Where the cursor cannot be read, or its
filters are not those of the query, an error is thrown and caught. -/
def cursorId (q : AuditQuery) : Option String :=
  match truthy q.cursor with
  | none => none
  | some cursor =>
    match decodeCursor repair cursor with
    | none => none
    | some data =>
      match data.get? "lastId", data.get? "filters" with
      | _, none | _, some .null => none
      | some (.str id), some stored =>
        if sameFilters stored q.toAuditFilters then some id else none
      | _, some _ => none

theorem cursorId_encodeCursor (q : AuditQuery) {id timestamp : String}
    (isCursor : q.cursor = some (encodeCursor ⟨id, timestamp, q.toAuditFilters⟩)) :
    cursorId repair q = some id := by
  have isSet : truthy q.cursor = some (encodeCursor ⟨id, timestamp, q.toAuditFilters⟩) := by
    simp [isCursor, truthy, encodeCursor_ne_empty]
  have named : (CursorData.toJson ⟨id, timestamp, q.toAuditFilters⟩).get? "lastId" =
      some (.str id) := rfl
  have stored : (CursorData.toJson ⟨id, timestamp, q.toAuditFilters⟩).get? "filters" =
      some (.obj (definedFields q.fields)) := rfl
  simp [cursorId, isSet, decodeCursor_encodeCursor, named, stored, sameFilters_self]

/-- Where a page starts: after the entry that the cursor names. -/
def startIndex (log : List AuditEntry) (q : AuditQuery) : Nat :=
  match cursorId repair q with
  | none => 0
  | some id => ((log.findIdx? fun entry => entry.id = id).map (· + 1)).getD 0

def AuditStore.queryWithCursor (s : AuditStore) (q : AuditQuery) : AuditQueryResult :=
  let limit := pageLimit q.limit
  let start := startIndex repair s.log q
  -- The position in the whole log is used as a position among the matching entries.
  let filtered := s.log.filter (q.toAuditFilters.matches codeUnitLe)
  let entries := (filtered.drop start).take limit
  { entries
    count := entries.length
    limit
    nextCursor :=
      if start + limit < filtered.length then
        entries.getLast?.map fun lastEntry =>
          encodeCursor ⟨lastEntry.id, lastEntry.timestamp, q.toAuditFilters⟩
      else none }

/-! ### Integrity -/

structure IntegrityReport where
  valid : Bool
  totalEntries : Nat
  firstCorruptedIndex : Option Nat := none
  firstCorruptedId : Option String := none
  checkedAt : String
  deriving DecidableEq

variable (sha256 : String → List UInt8)

/-- The digest an entry should carry. -/
def AuditEntry.digest (entry : AuditEntry) : String :=
  computeEntryHash sha256 entry.toUnhashedEntry

/-- `verifyIntegrity`, on the entries of a log. -/
def verifyIntegrity (log : List AuditEntry) (checkedAt : String) : IntegrityReport :=
  match firstBroken (fun e : AuditEntry => e.previousHash) AuditEntry.hash (AuditEntry.digest sha256)
      genesisHash 0 log with
  | none => { valid := true, totalEntries := log.length, checkedAt }
  | some (i, entry) =>
    { valid := false
      totalEntries := log.length
      firstCorruptedIndex := some i
      firstCorruptedId := some entry.id
      checkedAt }

def appendAll (s : AuditStore) (calls : List (CreateAuditEntryInput × Draw)) : AuditStore :=
  run (fun s call => (s.append sha256 call.1 call.2).2) s calls

variable (log : List AuditEntry) (i : Nat)

/-- The hash that the entry at position `i` should be linked to. -/
def expectedPreviousHash : String :=
  if i = 0 then genesisHash else ((log[i - 1]?).map (·.hash)).getD genesisHash

/-- The link or the own hash of the entry at position `i` fails. -/
def Corrupted : Prop :=
  ∃ entry, log[i]? = some entry ∧
    (entry.previousHash ≠ expectedPreviousHash log i ∨
      entry.hash ≠ computeEntryHash sha256 entry.toUnhashedEntry)

section

variable {sha256 : String → List UInt8}

variable (sha256) in
/-- The log is a hash chain. -/
def Linked (log : List AuditEntry) : Prop :=
  Chained (fun e : AuditEntry => e.previousHash) AuditEntry.hash (AuditEntry.digest sha256) genesisHash log

theorem valid_iff_linked (checkedAt : String) :
    (verifyIntegrity sha256 log checkedAt).valid = true ↔ Linked sha256 log := by
  rw [Linked, ← firstBroken_eq_none_iff (i := 0)]
  unfold verifyIntegrity
  split
  · rename_i walked
    simp [walked]
  · rename_i walked
    simp [walked]

variable {s : AuditStore}

theorem linked_append (linked : Linked sha256 s.log) (input : CreateAuditEntryInput) (draw : Draw) :
    Linked sha256 (s.append sha256 input draw).2.log := by
  unfold AuditStore.append
  split
  · exact linked
  · exact chained_append_singleton.mpr ⟨linked, rfl, rfl⟩

theorem linked_appendAll (linked : Linked sha256 s.log)
    (calls : List (CreateAuditEntryInput × Draw)) : Linked sha256 (appendAll sha256 s calls).log := by
  let Holds (s : AuditStore) : Prop := Linked sha256 s.log
  have keeps : ∀ (s : AuditStore) (call : CreateAuditEntryInput × Draw), Holds s →
      Holds (s.append sha256 call.1 call.2).2 := by
    intro s call linked
    exact linked_append linked call.1 call.2
  have start : Holds s := linked
  exact run_invariant keeps start calls

variable (sha256) in
theorem append_of_open (isOpen : s.appendGuard = false)
    (input : CreateAuditEntryInput) (draw : Draw) :
    (s.append sha256 input draw).2 =
      ⟨s.log ++ [makeEntry sha256 input draw (lastHash s.log)], false⟩ := by
  simp [AuditStore.append, isOpen]

variable (sha256) in
theorem appendAll_log (isOpen : s.appendGuard = false)
    (calls : List (CreateAuditEntryInput × Draw)) :
    (appendAll sha256 s calls).appendGuard = false ∧
      ∃ added, (appendAll sha256 s calls).log = s.log ++ added ∧
        added.map (·.id) = calls.map (·.2.id) := by
  induction calls generalizing s with
  | nil => exact ⟨isOpen, [], (List.append_nil _).symm, rfl⟩
  | cons call calls ih =>
    have stepped := append_of_open sha256 isOpen call.1 call.2
    obtain ⟨down, added, grown, ids⟩ := ih (s := (s.append sha256 call.1 call.2).2) (by rw [stepped])
    refine ⟨down, makeEntry sha256 call.1 call.2 (lastHash s.log) :: added, ?_, ?_⟩
    · refine grown.trans ?_
      rw [stepped, List.append_assoc]
      rfl
    · exact congrArg (call.2.id :: ·) ids

theorem binding_of_payload (binds : ∀ e e' : UnhashedEntry,
      computeEntryHash sha256 e = computeEntryHash sha256 e' → e.payload = e'.payload) :
    Binding AuditEntry.hash (AuditEntry.digest sha256) genesisHash where
  inj := by
    intro e e' own own' same
    have unhashed : e.toUnhashedEntry = e'.toUnhashedEntry := by
      apply UnhashedEntry.payload_injective
      apply binds
      exact own.symm.trans (same.trans own')
    cases e
    cases e'
    cases unhashed
    cases same
    rfl
  ne_genesis := fun e => computeEntryHash_ne_genesisHash sha256 e.toUnhashedEntry

variable {log : List AuditEntry} {entry : AuditEntry} {i : Nat}

theorem lastHash_take (found : log[i]? = some entry) : lastHash (log.take (i + 1)) = entry.hash := by
  obtain ⟨bound, rfl⟩ := List.getElem?_eq_some_iff.mp found
  rw [lastHash, List.take_succ_eq_append_getElem bound, tip_append_singleton]

/-- Two linked logs with one hash at position `i` agree up to there. -/
theorem take_eq_of_hash_eq
    (binding : Binding AuditEntry.hash (AuditEntry.digest sha256) genesisHash)
    {log' : List AuditEntry} (linked : Linked sha256 log) (linked' : Linked sha256 log')
    {entry' : AuditEntry} (found : log[i]? = some entry) (found' : log'[i]? = some entry')
    (same : entry.hash = entry'.hash) : log.take (i + 1) = log'.take (i + 1) := by
  apply Chained.eq_of_tip_eq binding (linked.take (i + 1)) (linked'.take (i + 1))
  change lastHash (log.take (i + 1)) = lastHash (log'.take (i + 1))
  rw [lastHash_take found, lastHash_take found', same]

theorem expectedPreviousHash_eq (within : i ≤ log.length) :
    expectedPreviousHash log i = lastHash (log.take i) := by
  cases i with
  | zero => rfl
  | succ i =>
    rw [lastHash_take (List.getElem?_eq_getElem (by omega)), expectedPreviousHash, List.getElem?_eq_getElem (by omega)]
    rfl

theorem not_corrupted_of_linked {j : Nat} (linked : Linked sha256 (log.take (j + 1))) :
    ¬ Corrupted sha256 log j := by
  rintro ⟨entry, found, fails⟩
  obtain ⟨bound, rfl⟩ := List.getElem?_eq_some_iff.mp found
  rw [List.take_succ_eq_append_getElem bound] at linked
  obtain ⟨-, link, own⟩ := chained_append_singleton.mp linked
  rcases fails with link' | own'
  · rw [expectedPreviousHash_eq bound.le] at link'
    exact link' link
  · exact own' own

/-- Where the walk stops is the first corrupted entry. -/
theorem corrupted_of_firstBroken
    (broken : firstBroken (fun e : AuditEntry => e.previousHash) AuditEntry.hash
      (AuditEntry.digest sha256) genesisHash 0 log = some (i, entry)) :
    log[i]? = some entry ∧ Corrupted sha256 log i ∧ ∀ j, j < i → ¬ Corrupted sha256 log j := by
  obtain ⟨before, after, rfl, rfl, chained, fails⟩ := firstBroken_eq_some broken
  rw [Nat.zero_add]
  have found : (before ++ entry :: after)[before.length]? = some entry := by simp
  refine ⟨found, ⟨entry, found, ?_⟩, ?_⟩
  · rw [expectedPreviousHash_eq (by simp), List.take_left]
    exact fails
  · intro j early
    apply not_corrupted_of_linked
    rw [List.take_append_of_le_length (by omega)]
    exact chained.take (j + 1)

theorem verifyIntegrity_of_not_linked (changed : ¬ Linked sha256 log) (checkedAt : String) :
    ∃ i entry, log[i]? = some entry ∧ Corrupted sha256 log i ∧
      (∀ j, j < i → ¬ Corrupted sha256 log j) ∧
      verifyIntegrity sha256 log checkedAt =
        { valid := false
          totalEntries := log.length
          firstCorruptedIndex := some i
          firstCorruptedId := some entry.id
          checkedAt } := by
  cases walked : firstBroken (fun e : AuditEntry => e.previousHash) AuditEntry.hash
      (AuditEntry.digest sha256) genesisHash 0 log with
  | none => exact absurd (firstBroken_eq_none_iff.mp walked) changed
  | some found =>
    obtain ⟨at', corrupted, first⟩ := corrupted_of_firstBroken walked
    refine ⟨found.1, found.2, at', corrupted, first, ?_⟩
    rw [verifyIntegrity, walked]

theorem verifyIntegrity_of_linked (linked : Linked sha256 log) (checkedAt : String) :
    verifyIntegrity sha256 log checkedAt = { valid := true, totalEntries := log.length, checkedAt } := by
  rw [verifyIntegrity, firstBroken_eq_none_iff.mpr linked]

/-! ### Tamper evidence -/

/-- Logs made by appending pass the check; two logs that pass and carry the same
hash at some position agree up to it; and a log that was changed but kept its
last hash is reported at the first entry whose link or own hash fails. -/
theorem audit_log_tamper_evident (sha256 : String → List UInt8) :
    (∀ (calls : List (CreateAuditEntryInput × Draw)) (checkedAt : String),
      verifyIntegrity sha256 (appendAll sha256 AuditStore.empty calls).log checkedAt =
        { valid := true, totalEntries := calls.length, checkedAt }) ∧
    ((∀ e e' : UnhashedEntry,
        computeEntryHash sha256 e = computeEntryHash sha256 e' → e.payload = e'.payload) →
      (∀ (log log' : List AuditEntry) (now now' : String) (i : Nat) (entry entry' : AuditEntry),
        (verifyIntegrity sha256 log now).valid = true →
        (verifyIntegrity sha256 log' now').valid = true →
        log[i]? = some entry → log'[i]? = some entry' → entry.hash = entry'.hash →
        log.take (i + 1) = log'.take (i + 1)) ∧
      ∀ (log log' : List AuditEntry) (now checkedAt : String),
        (verifyIntegrity sha256 log now).valid = true → log' ≠ log → lastHash log' = lastHash log →
        ∃ i entry, log'[i]? = some entry ∧ Corrupted sha256 log' i ∧
          (∀ j, j < i → ¬ Corrupted sha256 log' j) ∧
          verifyIntegrity sha256 log' checkedAt =
            { valid := false
              totalEntries := log'.length
              firstCorruptedIndex := some i
              firstCorruptedId := some entry.id
              checkedAt }) := by
  refine ⟨?_, fun binds => ⟨?_, ?_⟩⟩
  · intro calls checkedAt
    have empty : Linked sha256 AuditStore.empty.log := trivial
    obtain ⟨-, added, grown, ids⟩ := appendAll_log sha256 (s := AuditStore.empty) rfl calls
    have size : (appendAll sha256 AuditStore.empty calls).log.length = calls.length := by
      rw [grown]
      simpa [AuditStore.empty] using congrArg List.length ids
    rw [verifyIntegrity_of_linked (linked_appendAll empty calls), size]
  · intro log log' now now' i entry entry' valid valid' found found' same
    exact take_eq_of_hash_eq (binding_of_payload binds) ((valid_iff_linked log now).mp valid)
      ((valid_iff_linked log' now').mp valid') found found' same
  · intro log log' now checkedAt valid changed sameLast
    apply verifyIntegrity_of_not_linked
    intro linked'
    have linked := (valid_iff_linked log now).mp valid
    exact changed (Chained.eq_of_tip_eq (binding_of_payload binds) linked' linked sameLast)

end

def loginCalls : List (CreateAuditEntryInput × Draw) :=
  let input : CreateAuditEntryInput :=
    { action := .authLogin
      severity := .info
      actor := "alice"
      resource := "session"
      resourceId := "s-1"
      metadata := []
      ipAddress := none
      correlationId := none }
  [(input, ⟨"e-1", "2026-01-01T00:00:00.000Z"⟩), (input, ⟨"e-2", "2026-01-01T00:00:01.000Z"⟩)]

/-- The first entry names somebody else, and nothing else is changed. -/
def blameFirst (actor : String) : List AuditEntry → List AuditEntry
  | [] => []
  | entry :: log => { entry with actor } :: log

theorem audit_log_tamper_evident_edit :
    let log := (appendAll utf8Bytes AuditStore.empty loginCalls).log
    log.length = 2 ∧ (verifyIntegrity utf8Bytes log "").valid = true ∧
      ∃ i entry, (blameFirst "bob" log)[i]? = some entry ∧ Corrupted utf8Bytes (blameFirst "bob" log) i ∧
        (∀ j, j < i → ¬ Corrupted utf8Bytes (blameFirst "bob" log) j) ∧
        verifyIntegrity utf8Bytes (blameFirst "bob" log) "" =
          { valid := false
            totalEntries := 2
            firstCorruptedIndex := some i
            firstCorruptedId := some entry.id
            checkedAt := "" } := by
  intro log
  obtain ⟨sound, evident⟩ := audit_log_tamper_evident utf8Bytes
  have valid : (verifyIntegrity utf8Bytes log "").valid = true := by rw [sound loginCalls ""]
  have binds : ∀ e e' : UnhashedEntry,
      computeEntryHash utf8Bytes e = computeEntryHash utf8Bytes e' → e.payload = e'.payload := by
    intro e e' same
    rw [computeEntryHash_injective utf8Bytes_injective same]
  refine ⟨rfl, valid, (evident binds).2 log (blameFirst "bob" log) "" "" valid ?_ rfl⟩
  intro same
  have actors := congrArg (List.map fun e : AuditEntry => e.actor) same
  exact absurd actors (by decide)

end TalentTrust.Audit
