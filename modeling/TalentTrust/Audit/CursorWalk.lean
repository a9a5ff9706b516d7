import TalentTrust.Audit.Store

/-!
Following the cursors of the in-memory audit log.

`queryWithCursor` looks for the last entry of a page in the whole log and takes
its position for one among the matching entries. An entry that does not match
and stands before the end of a page moves the next page too far, and what lies
between is never returned. The pages make up the answer of `query` exactly if
there is no such entry (`cursor_walk_complete_iff`). Entries appended between
the pages do no harm of their own.
-/

namespace TalentTrust.Audit

open TalentTrust.Lib

/-! ### A walk through a log that grows between pages -/

/-- The store at the request for page `k`: a batch of entries is appended before
each page but the first. -/
def storeAt (sha256 : String → List UInt8) (s : AuditStore)
    (batches : List (List (CreateAuditEntryInput × Draw))) (k : Nat) : AuditStore :=
  appendAll sha256 s (batches.take k).flatten

/-- The ids of the log and those drawn later are all different. -/
def DistinctIds (s : AuditStore) (batches : List (List (CreateAuditEntryInput × Draw))) : Prop :=
  (s.log.map (·.id) ++ batches.flatten.map (·.2.id)).Nodup

instance (s : AuditStore) (batches : List (List (CreateAuditEntryInput × Draw))) :
    Decidable (DistinctIds s batches) :=
  inferInstanceAs (Decidable (List.Nodup _))

def pageQuery (filters : AuditFilters) (limit : Option Int) (cursor : Option String) : AuditQuery :=
  { toAuditFilters := filters, limit, cursor }

/-- The page for a cursor, and the cursor for the next page. -/
def AuditStore.page (repair : List UInt8 → String) (s : AuditStore) (filters : AuditFilters)
    (limit : Option Int) (cursor : Option String) : List AuditEntry × Option String :=
  let result := s.queryWithCursor repair (pageQuery filters limit cursor)
  (result.entries, result.nextCursor)

/-- Follow the cursors from the first page on. -/
def cursorWalk (sha256 : String → List UInt8) (repair : List UInt8 → String) (s : AuditStore)
    (batches : List (List (CreateAuditEntryInput × Draw))) (filters : AuditFilters)
    (limit : Option Int) (fuel : Nat) : Option (Nat × List AuditEntry) :=
  walk (fun k cursor => some ((storeAt sha256 s batches k).page repair filters limit cursor)) fuel 0 none

def matching (filters : AuditFilters) (log : List AuditEntry) : List AuditEntry :=
  log.filter (filters.matches codeUnitLe)

section

variable {sha256 : String → List UInt8} {repair : List UInt8 → String} {s : AuditStore}
  {batches : List (List (CreateAuditEntryInput × Draw))} {filters : AuditFilters} {limit : Option Int}

variable (sha256 s) in
theorem append_log_isPrefix
    (call : CreateAuditEntryInput × Draw) : s.log <+: (s.append sha256 call.1 call.2).2.log := by
  unfold AuditStore.append
  split
  · exact List.prefix_rfl
  · exact List.prefix_append _ _

variable (sha256 s batches) in
theorem storeAt_growing : Growing fun k => (storeAt sha256 s batches k).log :=
  growing_batches (append_log_isPrefix sha256) s batches

theorem storeAt_ids_nodup (isOpen : s.appendGuard = false) (distinct : DistinctIds s batches) (k : Nat) :
    ((storeAt sha256 s batches k).log.map (·.id)).Nodup := by
  obtain ⟨-, added, grown, ids⟩ := appendAll_log sha256 isOpen (batches.take k).flatten
  have drawn : ((batches.take k).flatten.map (·.2.id)).Sublist (batches.flatten.map (·.2.id)) :=
    (List.Sublist.flatten (List.take_sublist k batches)).map _
  rw [storeAt, grown, List.map_append, ids]
  exact distinct.sublist ((List.Sublist.refl _).append drawn)

/-! ### Where a cursor leads -/

variable (log : List AuditEntry)

theorem startIndex_encodeCursor (entry : AuditEntry) :
    startIndex repair log
        (pageQuery filters limit (some (encodeCursor ⟨entry.id, entry.timestamp, filters⟩))) =
      ((log.findIdx? fun e => e.id = entry.id).map (· + 1)).getD 0 := by
  rw [startIndex, cursorId_encodeCursor repair _ rfl]

variable {cursor : Option String} {i : Nat}
  (starts : startIndex repair s.log (pageQuery filters limit cursor) = i)

include starts

theorem page_eq :
    s.page repair filters limit cursor =
      (((matching filters s.log).drop i).take (pageLimit limit),
        (pageAt (pageQuery filters limit cursor) (matching filters s.log) i).nextCursor) := by
  subst starts
  rfl

theorem page_of_last (last : (matching filters s.log).length ≤ i + pageLimit limit) :
    s.page repair filters limit cursor =
      (((matching filters s.log).drop i).take (pageLimit limit), none) := by
  rw [page_eq starts, pageAt_nextCursor_of_le (q := pageQuery filters limit cursor) last]

omit starts

/-- The cursor at the end of a page leads to a position not before that end in
any later log, and leads to the end only if all entries before it match. -/
theorem page_of_more {log : List AuditEntry} (grown : s.log <+: log)
    (distinct : (log.map (·.id)).Nodup)
    (starts : startIndex repair s.log (pageQuery filters limit cursor) = i)
    (more : i + pageLimit limit < (matching filters s.log).length) :
    ∃ next i', s.page repair filters limit cursor =
        (((matching filters s.log).drop i).take (pageLimit limit), some next) ∧
      startIndex repair log (pageQuery filters limit (some next)) = i' ∧
      i + pageLimit limit ≤ i' ∧
      (i' = i + pageLimit limit ↔
        ∀ e ∈ s.log.take (i + pageLimit limit), filters.matches codeUnitLe e = true) := by
  have positive := pageLimit_pos limit
  -- The last entry of the page, in the log of this request and in the later one.
  obtain ⟨lastEntry, found, next⟩ :=
    pageAt_nextCursor_of_lt (q := pageQuery filters limit cursor) more
  have found' : (matching filters log)[i + pageLimit limit - 1]? = some lastEntry :=
    getElem?_of_isPrefix (grown.filter _) found
  obtain ⟨m, position, notBefore, exactly⟩ := findIdx?_of_filter distinct found'
  have sameStart : log.take (i + pageLimit limit) = s.log.take (i + pageLimit limit) := by
    obtain ⟨added, rfl⟩ := grown
    have size : (matching filters s.log).length ≤ s.log.length := List.length_filter_le _ _
    rw [List.take_append_of_le_length (by omega)]
  have counted : i + pageLimit limit - 1 + 1 = i + pageLimit limit := by omega
  refine ⟨encodeCursor ⟨lastEntry.id, lastEntry.timestamp, filters⟩, m + 1, ?_, ?_, by omega, ?_⟩
  · rw [page_eq starts, next]
    rfl
  · rw [startIndex_encodeCursor, position]
    rfl
  · rw [counted, sameStart] at exactly
    rw [← exactly]
    omega

/-! ### Complete walks -/

variable (sha256 repair s batches filters limit) in
/-- The cursor of page `k` leads to position `i`. -/
def LeadsTo (k : Nat) (cursor : Option String) (i : Nat) : Prop :=
  startIndex repair (storeAt sha256 s batches k).log (pageQuery filters limit cursor) = i

variable (sha256 s batches filters limit) in
/-- There is a next page after each page before page `k`. -/
def GoesOn (k : Nat) : Prop :=
  ∀ l, l < k → (l + 1) * pageLimit limit <
    (storeAt sha256 s batches l).log.countP (filters.matches codeUnitLe)

variable (sha256 s batches filters limit) in
/-- All entries up to the end of a page match, for each page that has a next one. -/
def PagesAligned : Prop :=
  ∀ k, GoesOn sha256 s batches filters limit (k + 1) →
    ∀ e ∈ (storeAt sha256 s batches k).log.take ((k + 1) * pageLimit limit),
      filters.matches codeUnitLe e = true

theorem countP_matching : log.countP (filters.matches codeUnitLe) = (matching filters log).length :=
  List.countP_eq_length_filter

variable (isOpen : s.appendGuard = false) (distinct : DistinctIds s batches)

include isOpen distinct

theorem paged_leadsTo :
    Paged (fun k cursor => some ((storeAt sha256 s batches k).page repair filters limit cursor))
      (fun k => matching filters (storeAt sha256 s batches k).log) (pageLimit limit)
      (LeadsTo sha256 repair s batches filters limit) where
  first := rfl
  page := by
    intro k cursor i starts
    by_cases more : i + pageLimit limit < (matching filters (storeAt sha256 s batches k).log).length
    · obtain ⟨next, i', paged, starts', after, -⟩ := page_of_more ((storeAt_growing _ _ _).grows k)
        (storeAt_ids_nodup isOpen distinct (k + 1)) starts more
      refine ⟨some next, congrArg some paged, ?_, ?_⟩
      · simpa using more
      · rintro c ⟨⟩
        exact ⟨i', after, starts'⟩
    · refine ⟨none, congrArg some (page_of_last starts (by omega)), by simpa using more, ?_⟩
      rintro c ⟨⟩

variable (repair) in
theorem contiguous_of_aligned (aligned : PagesAligned sha256 s batches filters limit) :
    Contiguous (fun k cursor => some ((storeAt sha256 s batches k).page repair filters limit cursor))
      (fun k => matching filters (storeAt sha256 s batches k).log) (pageLimit limit)
      (fun k cursor i => LeadsTo sha256 repair s batches filters limit k cursor i ∧
        i = k * pageLimit limit ∧ GoesOn sha256 s batches filters limit k) where
  first := ⟨rfl, (Nat.zero_mul _).symm, fun l before => absurd before (Nat.not_lt_zero l)⟩
  last marked short := congrArg some (page_of_last marked.1 short)
  more := by
    rintro k cursor i ⟨starts, rfl, onward⟩ more
    have onward' : GoesOn sha256 s batches filters limit (k + 1) := by
      intro l before
      rcases Nat.lt_succ_iff_lt_or_eq.mp before with earlier | rfl
      · exact onward l earlier
      · rw [countP_matching, Nat.succ_mul]
        exact more
    obtain ⟨next, i', paged, starts', -, exactly⟩ := page_of_more ((storeAt_growing _ _ _).grows k)
      (storeAt_ids_nodup isOpen distinct (k + 1)) starts more
    have allMatch := aligned k onward'
    rw [Nat.succ_mul] at allMatch
    cases exactly.mpr allMatch
    exact ⟨next, congrArg some paged, starts', (Nat.succ_mul _ _).symm, onward'⟩

theorem pagesAligned_of_complete
    {fuel n : Nat} (complete : cursorWalk sha256 repair s batches filters limit fuel =
      some (n, matching filters (storeAt sha256 s batches n).log)) :
    PagesAligned sha256 s batches filters limit := by
  intro k onward
  obtain ⟨cursor, c, page, starts, fetched, starts'⟩ :=
    exact_of_complete ((storeAt_growing _ _ _).filter _) (paged_leadsTo isOpen distinct) complete k (by
      intro l le
      rw [← List.countP_eq_length_filter]
      exact onward l (by omega))
  have more := onward k (Nat.lt_succ_self k)
  rw [countP_matching, Nat.succ_mul] at more
  obtain ⟨next, i', paged, leads, -, exactly⟩ := page_of_more ((storeAt_growing _ _ _).grows k)
    (storeAt_ids_nodup isOpen distinct (k + 1)) starts more
  have fetched' := Option.some.inj fetched
  rw [paged] at fetched'
  cases fetched'
  rw [Nat.succ_mul] at starts' ⊢
  exact exactly.mp (leads.symm.trans starts')

omit isOpen distinct

/-- Following the cursors through a log that grows between the pages returns
what `query` returns at the last page iff all entries up to the end of each page
that is not the last one match. -/
theorem cursor_walk_complete_iff (sha256 : String → List UInt8) (repair : List UInt8 → String)
    (log : List AuditEntry) (batches : List (List (CreateAuditEntryInput × Draw)))
    (filters : AuditFilters) (limit : Option Int) (distinct : DistinctIds ⟨log, false⟩ batches) :
    (∃ fuel n, cursorWalk sha256 repair ⟨log, false⟩ batches filters limit fuel =
      some (n, (storeAt sha256 ⟨log, false⟩ batches n).query { toAuditFilters := filters })) ↔
      PagesAligned sha256 ⟨log, false⟩ batches filters limit := by
  constructor
  · rintro ⟨fuel, n, complete⟩
    exact pagesAligned_of_complete rfl distinct complete
  · intro aligned
    have paged := contiguous_of_aligned repair rfl distinct aligned
    exact walk_complete ((storeAt_growing _ _ _).filter _) (pageLimit_pos limit) paged

end

def loginEntry (id actor : String) : AuditEntry :=
  { action := .authLogin
    severity := .info
    actor
    resource := "session"
    resourceId := "s-1"
    metadata := []
    ipAddress := none
    correlationId := none
    id
    timestamp := "2026-01-01T00:00:00.000Z"
    previousHash := genesisHash
    hash := "" }

/-- An entry that does not match stands behind the first page, and one that does
is appended before the second. -/
theorem cursor_walk_complete_iff_appended :
    let log := [loginEntry "e-1" "alice", loginEntry "e-2" "alice", loginEntry "e-3" "bob"]
    let batches := [[((loginEntry "" "alice").toCreateAuditEntryInput, Draw.mk "e-4" "")]]
    DistinctIds ⟨log, false⟩ batches ∧
      ∃ fuel n, cursorWalk utf8Bytes (fun _ => "") ⟨log, false⟩ batches { actor := some "alice" } (some 1) fuel =
        some (n, (storeAt utf8Bytes ⟨log, false⟩ batches n).query { actor := some "alice" }) := by
  intro log batches
  have distinct : DistinctIds ⟨log, false⟩ batches := by decide
  refine ⟨distinct, (cursor_walk_complete_iff _ _ _ _ _ _ distinct).mpr ?_⟩
  intro k onward
  match k with
  | 0 => decide
  | 1 => decide
  | k + 2 =>
    have enough := onward 2 (by omega)
    exact absurd enough (by decide)

/-- An entry that does not match stands before the first page's end: the second
matching entry is never returned. -/
theorem cursor_walk_skips_entry :
    let log := [loginEntry "e-1" "bob", loginEntry "e-2" "alice", loginEntry "e-3" "alice"]
    (AuditStore.mk log false).query { actor := some "alice" } =
        [loginEntry "e-2" "alice", loginEntry "e-3" "alice"] ∧
      cursorWalk utf8Bytes (fun _ => "") ⟨log, false⟩ [] { actor := some "alice" } (some 1) 2 =
        some (1, [loginEntry "e-2" "alice"]) ∧
      ∀ fuel n, cursorWalk utf8Bytes (fun _ => "") ⟨log, false⟩ [] { actor := some "alice" } (some 1) fuel ≠
        some (n, (storeAt utf8Bytes ⟨log, false⟩ [] n).query { actor := some "alice" }) := by
  intro log
  refine ⟨by decide, by decide +kernel, ?_⟩
  intro fuel n complete
  have distinct : DistinctIds ⟨log, false⟩ [] := by decide
  have aligned := pagesAligned_of_complete rfl distinct complete 0 (by
    intro l first
    cases Nat.lt_one_iff.mp first
    decide)
  exact absurd (aligned (loginEntry "e-1" "bob") (by decide)) (by decide)

end TalentTrust.Audit
