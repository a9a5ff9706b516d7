import TalentTrust.Audit.Entry
import TalentTrust.Lib.Base64
import TalentTrust.Lib.JsonParse
import TalentTrust.Lib.Paging

/-!
Queries of the audit log and their cursors: `audit/types.ts`.

A cursor is the base64 text of an object with the id of the last entry of a page
and the filters of the query. `decodeCursor_encodeCursor` reads it back. `pageAt`
is the page that both repositories return once they know where it starts.
-/

namespace TalentTrust.Audit

open TalentTrust.Lib

/-! ### Queries -/

structure AuditFilters where
  action : Option AuditAction := none
  severity : Option AuditSeverity := none
  actor : Option String := none
  resource : Option String := none
  resourceId : Option String := none
  fromTime : Option String := none
  toTime : Option String := none
  deriving DecidableEq

structure AuditQuery extends AuditFilters where
  limit : Option Int := none
  offset : Option Int := none
  cursor : Option String := none
  deriving DecidableEq

/-- The page of the query is in the range of the database. -/
structure AuditQuery.InRange (q : AuditQuery) : Prop where
  limit : ∀ limit ∈ q.limit, limit < 2 ^ 63
  offset : ∀ offset ∈ q.offset, offset < 2 ^ 63

instance (q : AuditQuery) : Decidable q.InRange :=
  decidable_of_iff ((∀ limit ∈ q.limit, limit < 2 ^ 63) ∧ ∀ offset ∈ q.offset, offset < 2 ^ 63)
    ⟨fun h => ⟨h.1, h.2⟩, fun h => ⟨h.limit, h.offset⟩⟩

/-- A text that counts as a condition: `undefined` and `''` do not. -/
def truthy (value : Option String) : Option String := value.filter (· ≠ "")

/-- The filters of a query, for an order of timestamps. -/
def AuditFilters.matches (le : String → String → Bool) (q : AuditFilters) (entry : AuditEntry) : Bool :=
  q.action.all (entry.action = ·) && q.severity.all (entry.severity = ·) &&
    (truthy q.actor).all (entry.actor = ·) && (truthy q.resource).all (entry.resource = ·) &&
    (truthy q.resourceId).all (entry.resourceId = ·) &&
    (truthy q.fromTime).all (le · entry.timestamp) && (truthy q.toTime).all (le entry.timestamp ·)

/-- `Math.min(Math.max(query.limit ?? 50, 1), 100)`. -/
def pageLimit (limit : Option Int) : Nat := (min (max (limit.getD 50) 1) 100).toNat

theorem pageLimit_pos (limit : Option Int) : 0 < pageLimit limit := by
  unfold pageLimit
  omega

structure AuditQueryResult where
  entries : List AuditEntry
  count : Nat
  limit : Nat
  nextCursor : Option String
  deriving DecidableEq

/-! ### Cursors -/

structure CursorData where
  lastId : String
  lastTimestamp : String
  filters : AuditFilters
  deriving DecidableEq

/-- The filters with their names; `none` is `undefined`. -/
def AuditFilters.fields (q : AuditFilters) : List (String × Option Json) :=
  [("action", q.action.map (.str ·.text)), ("severity", q.severity.map (.str ·.text)),
    ("actor", q.actor.map .str), ("resource", q.resource.map .str),
    ("resourceId", q.resourceId.map .str), ("from", q.fromTime.map .str), ("to", q.toTime.map .str)]

/-- The fields that `JSON.stringify` prints: those that are defined. -/
def definedFields : List (String × Option Json) → List (String × Json)
  | [] => []
  | (_, none) :: fields => definedFields fields
  | (name, some value) :: fields => (name, value) :: definedFields fields

def CursorData.toJson (data : CursorData) : Json :=
  .obj [("lastId", .str data.lastId), ("lastTimestamp", .str data.lastTimestamp),
    ("filters", .obj (definedFields data.filters.fields))]

def encodeCursor (data : CursorData) : String := toBase64 (utf8Bytes data.toJson.stringify)

/-- `decodeCursor`; `none` is the error `Invalid cursor format`. -/
def decodeCursor (repair : List UInt8 → String) (cursor : String) : Option Json :=
  Json.parse (utf8Text repair (fromBase64 cursor))

/-- The filters stored in a cursor are those of the query, field by field. -/
def sameFilters (stored : Json) (q : AuditFilters) : Bool :=
  q.fields.all fun f => stored.get? f.1 = f.2

theorem names_definedFields_sublist (fields : List (String × Option Json)) :
    ((definedFields fields).map Prod.fst).Sublist (fields.map Prod.fst) := by
  induction fields with
  | nil => exact List.Sublist.refl _
  | cons f fields ih =>
    obtain ⟨name, _ | value⟩ := f
    · exact ih.cons name
    · exact ih.cons_cons name

variable {fields : List (String × Option Json)}

theorem lookup_definedFields
    (distinct : (fields.map Prod.fst).Nodup) {f : String × Option Json} (mem : f ∈ fields) :
    (definedFields fields).lookup f.1 = f.2 := by
  induction fields with
  | nil => cases mem
  | cons g fields ih =>
    obtain ⟨fresh, rest⟩ := List.nodup_cons.mp distinct
    rcases List.mem_cons.mp mem with rfl | later
    · obtain ⟨name, _ | value⟩ := f
      · apply lookup_eq_none_of_notMem
        intro found
        exact fresh ((names_definedFields_sublist fields).subset found)
      · exact (lookup_cons_ite _ _ _).trans (if_pos rfl)
    · have other : f.1 ≠ g.1 := by
        intro same
        exact fresh (same ▸ List.mem_map_of_mem later)
      obtain ⟨name, _ | value⟩ := g
      · exact ih rest later
      · exact (lookup_cons_ite _ _ _).trans ((if_neg other).trans (ih rest later))

theorem nodup_fields (q : AuditFilters) : (q.fields.map Prod.fst).Nodup := by
  have names : q.fields.map Prod.fst =
      ["action", "severity", "actor", "resource", "resourceId", "from", "to"] := rfl
  rw [names]
  decide

theorem sameFilters_self (q : AuditFilters) : sameFilters (.obj (definedFields q.fields)) q = true := by
  rw [sameFilters, List.all_eq_true]
  intro f mem
  exact decide_eq_true (lookup_definedFields (nodup_fields q) mem)

theorem normalizeFields_definedFields
    (plain : ∀ f ∈ fields, ∀ value, f.2 = some value → value.normalize = value) :
    Json.normalizeFields (definedFields fields) = definedFields fields := by
  induction fields with
  | nil => rfl
  | cons f fields ih =>
    obtain ⟨first, rest⟩ := List.forall_mem_cons.mp plain
    obtain ⟨name, _ | value⟩ := f
    · exact ih rest
    · rw [definedFields, Json.normalizeFields, ih rest, first value rfl]

theorem normalize_fields (q : AuditFilters) :
    ∀ f ∈ q.fields, ∀ value, f.2 = some value → value.normalize = value := by
  have text : ∀ {α : Type} (o : Option α) (print : α → String) (value : Json),
      o.map (fun a => Json.str (print a)) = some value → value.normalize = value := by
    intro α o print value same
    obtain ⟨a, -, rfl⟩ := Option.map_eq_some_iff.mp same
    rfl
  intro f mem value same
  simp only [AuditFilters.fields, List.mem_cons, List.not_mem_nil, or_false] at mem
  rcases mem with rfl | rfl | rfl | rfl | rfl | rfl | rfl <;> exact text _ _ _ same

theorem decodeCursor_encodeCursor (repair : List UInt8 → String) (data : CursorData) :
    decodeCursor repair (encodeCursor data) = some data.toJson := by
  have filtersNodup := (nodup_fields data.filters).sublist (names_definedFields_sublist _)
  have dataNodup : ∀ a b c : Json,
      ([("lastId", a), ("lastTimestamp", b), ("filters", c)].map Prod.fst).Nodup := by
    intro a b c
    simp
  rw [decodeCursor, encodeCursor, fromBase64_toBase64, utf8Text_utf8Bytes, Json.parse_stringify,
    CursorData.toJson]
  simp only [Json.normalize, Json.normalizeFields,
    normalizeFields_definedFields (normalize_fields data.filters)]
  rw [Json.lastWins_of_nodup filtersNodup, Json.lastWins_of_nodup (dataNodup _ _ _)]

theorem encodeCursor_ne_empty (data : CursorData) : encodeCursor data ≠ "" := by
  intro empty
  have decoded := decodeCursor_encodeCursor (fun _ => "") data
  have nothing : decodeCursor (fun _ => "") "" = none := by decide +kernel
  rw [empty] at decoded
  cases decoded

/-! ### Pages -/

/-- The page of the entries found from a position on. -/
def pageAt (q : AuditQuery) (found : List AuditEntry) (start : Nat) : AuditQueryResult :=
  let limit := pageLimit q.limit
  let entries := (found.drop start).take limit
  { entries
    count := entries.length
    limit
    nextCursor :=
      if start + limit < found.length then
        entries.getLast?.map fun lastEntry =>
          encodeCursor ⟨lastEntry.id, lastEntry.timestamp, q.toAuditFilters⟩
      else none }

section

variable {q : AuditQuery} {found : List AuditEntry} {start : Nat}

theorem pageAt_nextCursor_of_le (last : found.length ≤ start + pageLimit q.limit) :
    (pageAt q found start).nextCursor = none :=
  if_neg (Nat.not_lt.mpr last)

theorem pageAt_nextCursor_of_lt (more : start + pageLimit q.limit < found.length) :
    ∃ lastEntry, found[start + pageLimit q.limit - 1]? = some lastEntry ∧
      (pageAt q found start).nextCursor =
        some (encodeCursor ⟨lastEntry.id, lastEntry.timestamp, q.toAuditFilters⟩) := by
  have positive := pageLimit_pos q.limit
  have last : found[start + pageLimit q.limit - 1]? = some found[start + pageLimit q.limit - 1] :=
    List.getElem?_eq_getElem (by omega)
  refine ⟨_, last, (if_pos more).trans ?_⟩
  rw [getLast?_page positive more.le, last]
  rfl

theorem pageAt_of_le (past : found.length ≤ start) :
    pageAt q found start = ⟨[], 0, pageLimit q.limit, none⟩ := by
  have empty : found.drop start = [] := List.drop_eq_nil_of_le past
  have ended : ¬ start + pageLimit q.limit < found.length := by omega
  simp only [pageAt, empty, List.take_nil, List.length_nil, if_neg ended]

/-- One more entry changes a page iff it falls into the page or is the first
after it. -/
theorem pageAt_append_singleton {entry : AuditEntry} :
    pageAt q (found ++ [entry]) start = pageAt q found start ↔
      ¬ (start ≤ found.length ∧ found.length ≤ start + pageLimit q.limit) := by
  constructor
  · rintro same ⟨starts, ends⟩
    have sameEntries := congrArg AuditQueryResult.entries same
    have outside := window_append_singleton.mp sameEntries
    have sameCursor := congrArg AuditQueryResult.nextCursor same
    have more : start + pageLimit q.limit < (found ++ [entry]).length := by
      rw [List.length_append, List.length_singleton]
      omega
    obtain ⟨lastEntry, -, next⟩ := pageAt_nextCursor_of_lt more
    rw [next, pageAt_nextCursor_of_le (by omega)] at sameCursor
    cases sameCursor
  · intro outside
    have sameEntries : ((found ++ [entry]).drop start).take (pageLimit q.limit) =
        (found.drop start).take (pageLimit q.limit) := window_append_singleton.mpr (by omega)
    have sameMore : start + pageLimit q.limit < (found ++ [entry]).length ↔
        start + pageLimit q.limit < found.length := by
      rw [List.length_append, List.length_singleton]
      omega
    simp only [pageAt, sameEntries, sameMore]

end

end TalentTrust.Audit
