import TalentTrust.Audit.Repository
import TalentTrust.Lib.JsonScan
import TalentTrust.Lib.ReadThrough

/-!
The audit service with its read cache: `audit/service.ts` and `audit/auditCache.ts`.

An answer is cached under the text of its query. `log` drops the answers whose key
has the resource id of the new entry as a filter; all others stay until their time
is over, although a query need not have that filter to be affected. So a later read
may miss the entry. `audit_cache_transparent_iff` says when it does not: no answer
that stays is one that the entry changes.
-/

namespace TalentTrust.Audit

open TalentTrust.Lib

/-! ### Keys -/

inductive QueryField where
  | action
  | severity
  | actor
  | resource
  | resourceId
  | fromTime
  | toTime
  | limit
  | offset
  | cursor
  deriving DecidableEq, Repr

def QueryField.name : QueryField → String
  | .action => "action"
  | .severity => "severity"
  | .actor => "actor"
  | .resource => "resource"
  | .resourceId => "resourceId"
  | .fromTime => "from"
  | .toTime => "to"
  | .limit => "limit"
  | .offset => "offset"
  | .cursor => "cursor"

def QueryField.all : List QueryField :=
  [.action, .severity, .actor, .resource, .resourceId, .fromTime, .toTime, .limit, .offset, .cursor]

/-- The value of a field; `none` is `undefined`. -/
def AuditQuery.value (q : AuditQuery) : QueryField → Option Json
  | .action => q.action.map (.str ·.text)
  | .severity => q.severity.map (.str ·.text)
  | .actor => q.actor.map .str
  | .resource => q.resource.map .str
  | .resourceId => q.resourceId.map .str
  | .fromTime => q.fromTime.map .str
  | .toTime => q.toTime.map .str
  | .limit => q.limit.map fun n => .num (Decimal.normalise n 0)
  | .offset => q.offset.map fun n => .num (Decimal.normalise n 0)
  | .cursor => q.cursor.map .str

/-- A query as an object: its fields come in the order in which they were set. -/
structure QueryObject where
  query : AuditQuery
  fieldOrder : List QueryField
  complete : ∀ f, f ∈ fieldOrder
  distinct : fieldOrder.Nodup

def QueryObject.toJson (o : QueryObject) : Json :=
  .obj (definedFields (o.fieldOrder.map fun f => (f.name, o.query.value f)))

inductive Read where
  | query (q : QueryObject)
  | queryWithCursor (q : QueryObject)
  | getById (id : String)

/-- `generateKey`. -/
def Read.key : Read → String
  | .query q => "query" ++ ":" ++ q.toJson.stringify
  | .queryWithCursor q => "queryWithCursor" ++ ":" ++ q.toJson.stringify
  | .getById id => "getById:" ++ id

def includes (text part : String) : Bool := decide (part.toList <:+: text.toList)

/-- The test of `invalidateByResourceId`. -/
def mentions (resourceId key : String) : Bool :=
  includes key ("\"resourceId\":\"" ++ resourceId ++ "\"") ||
    includes key ("\"resourceId\":'" ++ resourceId ++ "'")

theorem QueryField.name_injective {f g : QueryField} (same : f.name = g.name) : f = g := by
  have distinct : (all.map name).Nodup := by decide +kernel
  have listed : ∀ f : QueryField, f ∈ all := by
    intro f
    cases f <;> decide
  exact List.inj_on_of_nodup_map distinct (listed f) (listed g) same

theorem QueryObject.get?_toJson (o : QueryObject) (f : QueryField) :
    o.toJson.get? f.name = o.query.value f := by
  have distinct : ((o.fieldOrder.map fun f => (f.name, o.query.value f)).map Prod.fst).Nodup := by
    rw [List.map_map]
    exact o.distinct.map fun _ _ => QueryField.name_injective
  exact lookup_definedFields distinct (List.mem_map.mpr ⟨f, o.complete f, rfl⟩)

theorem normalise_zero_injective {m n : Int}
    (same : Decimal.normalise m 0 = Decimal.normalise n 0) : m = n := by
  have values := congrArg Decimal.value same
  rw [Decimal.value_normalise, Decimal.value_normalise] at values
  simpa using values

theorem AuditQuery.eq_of_value {q q' : AuditQuery} (same : ∀ f, q.value f = q'.value f) : q = q' := by
  have texts : Function.Injective Json.str := fun _ _ eq => Json.str.inj eq
  have numbers : Function.Injective fun n : Int => Json.num (Decimal.normalise n 0) :=
    fun _ _ eq => normalise_zero_injective (Json.num.inj eq)
  have actions : Function.Injective fun a : AuditAction => Json.str a.text :=
    fun _ _ eq => AuditAction.text_injective (Json.str.inj eq)
  have severities : Function.Injective fun a : AuditSeverity => Json.str a.text :=
    fun _ _ eq => AuditSeverity.text_injective (Json.str.inj eq)
  obtain ⟨⟨action, severity, actor, resource, resourceId, fromTime, toTime⟩, limit, offset, cursor⟩ := q
  cases Option.map_injective actions (same .action)
  cases Option.map_injective severities (same .severity)
  cases Option.map_injective texts (same .actor)
  cases Option.map_injective texts (same .resource)
  cases Option.map_injective texts (same .resourceId)
  cases Option.map_injective texts (same .fromTime)
  cases Option.map_injective texts (same .toTime)
  cases Option.map_injective numbers (same .limit)
  cases Option.map_injective numbers (same .offset)
  cases Option.map_injective texts (same .cursor)
  rfl

theorem QueryObject.query_eq_of_toJson {o o' : QueryObject} (same : o.toJson = o'.toJson) :
    o.query = o'.query := by
  apply AuditQuery.eq_of_value
  intro f
  rw [← o.get?_toJson, ← o'.get?_toJson, same]

/-! ### The service -/

/-- What a read returns; an error is thrown. -/
inductive Answer where
  | entries (entries : Except String (List AuditEntry))
  | result (result : Except String AuditQueryResult)
  | entry (entry : Option AuditEntry)
  deriving DecidableEq

/-- Answers that are stored: an error is thrown before, and no entry is not stored. -/
def Answer.cacheable : Answer → Bool
  | .entries (.ok _) | .result (.ok _) => true
  | .entries (.error _) | .result (.error _) => false
  | .entry found => found.isSome

structure AuditCacheOptions where
  ttlMs : Int
  maxEntries : Int
  deriving DecidableEq

def Repository.answer (repair : List UInt8 → String) (coerce : Option Json → Option (Option String))
    (r : Repository) : Read → Answer
  | .query q => .entries (r.query q.query)
  | .queryWithCursor q => .result (r.queryWithCursor repair coerce q.query)
  | .getById id => .entry (r.getById id)

section

variable (sha256 : String → List UInt8) (repair : List UInt8 → String)
  (coerce : Option Json → Option (Option String))

theorem head?_toList_append {s t : String} {c : Char} (head : s.toList.head? = some c) :
    (s ++ t).toList.head? = some c := by
  rw [String.toList_append, List.head?_append, head]
  rfl

/-- The first letter of a key. -/
def Read.initial : Read → Char
  | .query _ | .queryWithCursor _ => 'q'
  | .getById _ => 'g'

theorem Read.head?_key (read : Read) : read.key.toList.head? = some read.initial := by
  cases read with
  | query q | queryWithCursor q => exact head?_toList_append (head?_toList_append rfl)
  | getById id => exact head?_toList_append rfl

theorem answer_eq_of_key {read read' : Read} (same : read.key = read'.key) (r : Repository) :
    r.answer repair coerce read = r.answer repair coerce read' := by
  have initials : read.initial = read'.initial := by
    rw [← Option.some_inj, ← Read.head?_key, ← Read.head?_key, same]
  cases read with
  | query q =>
    cases read' with
    | query q' =>
      obtain ⟨-, sameJson⟩ := Json.colon_stringify_injective same
      rw [Repository.answer, Repository.answer, QueryObject.query_eq_of_toJson sameJson]
    | queryWithCursor q' => exact absurd (Json.colon_stringify_injective same).1 (by decide)
    | getById id => exact absurd initials (by simp [Read.initial])
  | queryWithCursor q =>
    cases read' with
    | query q' => exact absurd (Json.colon_stringify_injective same).1 (by decide)
    | queryWithCursor q' =>
      obtain ⟨-, sameJson⟩ := Json.colon_stringify_injective same
      rw [Repository.answer, Repository.answer, QueryObject.query_eq_of_toJson sameJson]
    | getById id => exact absurd initials (by simp [Read.initial])
  | getById id =>
    cases read' with
    | query q' | queryWithCursor q' => exact absurd initials (by simp [Read.initial])
    | getById id' =>
      rw [(String.append_right_inj "getById:").mp same]

/-- The service: its reads go through the cache, and `log` appends and then drops
the keys that mention the resource id. -/
def service (options : AuditCacheOptions) :
    ReadThrough Repository Read (CreateAuditEntryInput × Draw) Answer String where
  answer := Repository.answer repair coerce
  update r call :=
    match r.append sha256 call.1 call.2 with
    | (.ok _, r') => some r'
    | (.error _, _) => none
  key := Read.key
  cacheable := Answer.cacheable
  drops call := mentions call.1.resourceId
  ttl := options.ttlMs
  capacity := options.maxEntries
  key_determines := answer_eq_of_key repair coerce

variable (options : AuditCacheOptions)

abbrev AuditService := ReadThrough.State Repository Answer String

abbrev Call := ReadThrough.Event Read (CreateAuditEntryInput × Draw)

namespace AuditService

/-- A service that was just built. -/
def new (r : Repository) (clock : Int) : AuditService := ⟨r, OrderedMap.empty, clock⟩

variable (s : AuditService) (q : QueryObject) (wait work : Nat)

/-- A read comes after `wait` ms, and the repository takes `work` ms for it. -/
def query : Answer × AuditService :=
  (service sha256 repair coerce options).read s (.query q) wait work

def queryWithCursor : Answer × AuditService :=
  (service sha256 repair coerce options).read s (.queryWithCursor q) wait work

def getById (id : String) (wait work : Nat) : Answer × AuditService :=
  (service sha256 repair coerce options).read s (.getById id) wait work

def log (input : CreateAuditEntryInput) (draw : Draw) : AuditService :=
  (service sha256 repair coerce options).write s (input, draw)

def step : Call → AuditService
  | .read (.query q) wait work => (s.query sha256 repair coerce options q wait work).2
  | .read (.queryWithCursor q) wait work => (s.queryWithCursor sha256 repair coerce options q wait work).2
  | .read (.getById id) wait work => (s.getById sha256 repair coerce options id wait work).2
  | .write (input, draw) => s.log sha256 repair coerce options input draw

/-- Every read, whenever it comes, returns what the repository returns. -/
structure Transparent : Prop where
  query : ∀ q wait work,
    (s.query sha256 repair coerce options q wait work).1 = .entries (s.store.query q.query)
  queryWithCursor : ∀ q wait work,
    (s.queryWithCursor sha256 repair coerce options q wait work).1 =
      .result (s.store.queryWithCursor repair coerce q.query)
  getById : ∀ id wait work,
    (s.getById sha256 repair coerce options id wait work).1 = .entry (s.store.getById id)

/-- The new entry changes the answer to a read. An entry that `getById` has found
stays. -/
def Affects (r : Repository) (entry : AuditEntry) : Read → Prop
  | .query q => r.AffectsQuery q.query entry
  | .queryWithCursor q => r.AffectsPage repair coerce q.query entry
  | .getById _ => False

/-- No answer that the cache still holds after the call is one that the new entry
changes. -/
def DropsAffected : Call → Prop
  | .read .. => True
  | .write (input, draw) => s.store.Accepts draw → ∀ read data,
      s.cache.Holds s.clock read.key data → mentions input.resourceId read.key = false →
      ¬ Affects repair coerce s.store (Repository.newEntry input draw) read

variable {sha256 repair coerce options} {s : AuditService}

theorem step_eq (s : AuditService) (call : Call) :
    s.step sha256 repair coerce options call = (service sha256 repair coerce options).step s call := by
  rcases call with ⟨_ | _ | _, wait, work⟩ | ⟨input, draw⟩ <;> rfl

theorem transparent_iff_reads :
    s.Transparent sha256 repair coerce options ↔ (service sha256 repair coerce options).Transparent s := by
  constructor
  · intro transparent read wait work
    cases read with
    | query q => exact transparent.query q wait work
    | queryWithCursor q => exact transparent.queryWithCursor q wait work
    | getById id => exact transparent.getById id wait work
  · intro transparent
    exact ⟨fun q => transparent (.query q), fun q => transparent (.queryWithCursor q),
      fun id => transparent (.getById id)⟩

variable {input : CreateAuditEntryInput} {r : Repository}

theorem update_of_accepts {draw : Draw} (accepts : r.Accepts draw) :
    ∃ r', (service sha256 repair coerce options).update r (input, draw) = some r' ∧
      r.Appended r' (Repository.newEntry input draw) := by
  obtain ⟨entry, isOk, appended⟩ := Repository.append_of_accepts sha256 input accepts
  refine ⟨(r.append sha256 input draw).2, ?_, appended⟩
  change (match r.append sha256 input draw with
    | (.ok _, r') => some r'
    | (.error _, _) => none) = _
  generalize r.append sha256 input draw = result at isOk
  obtain ⟨outcome, r'⟩ := result
  cases isOk
  rfl

theorem update_of_not_accepts {draw : Draw} (refuses : ¬ r.Accepts draw) :
    (service sha256 repair coerce options).update r (input, draw) = none := by
  obtain ⟨message, failed⟩ := Repository.append_of_not_accepts sha256 input refuses
  change (match r.append sha256 input draw with
    | (.ok _, r') => some r'
    | (.error _, _) => none) = _
  rw [failed]

theorem answer_append_iff {r' : Repository} {entry : AuditEntry} (appended : r.Appended r' entry)
    {read : Read} (stored : (r.answer repair coerce read).cacheable = true) :
    r'.answer repair coerce read = r.answer repair coerce read ↔ ¬ Affects repair coerce r entry read := by
  cases read with
  | query q =>
    cases answered : r.query q.query with
    | error message =>
      rw [Repository.answer, answered] at stored
      cases stored
    | ok entries =>
      simpa [Repository.answer, Affects] using Repository.query_append_iff appended q.query answered
  | queryWithCursor q =>
    simpa [Repository.answer, Affects] using Repository.queryWithCursor_append_iff appended q.query
  | getById id =>
    obtain ⟨e, found⟩ := Option.isSome_iff_exists.mp stored
    rw [Repository.answer, Repository.answer, found, appended.getById found]
    exact iff_of_true rfl not_false

theorem refreshes_iff (current : (service sha256 repair coerce options).Current s) (call : Call) :
    (service sha256 repair coerce options).Refreshes s call ↔ s.DropsAffected repair coerce call := by
  have stored : ∀ {read : Read} {data : Answer}, s.cache.Holds s.clock read.key data →
      (s.store.answer repair coerce read).cacheable = true := by
    intro read data holds
    obtain ⟨read', sameKey, cacheable, answers⟩ := current _ _ holds
    have answers' : s.store.answer repair coerce read' = data := answers
    rw [answer_eq_of_key repair coerce sameKey.symm, answers', ← cacheable]
    rfl
  rcases call with ⟨read, wait, work⟩ | ⟨input, draw⟩
  · exact Iff.rfl
  · constructor
    · intro refreshes accepts read data holds kept
      obtain ⟨r', updated, appended⟩ := update_of_accepts accepts
      exact (answer_append_iff appended (stored holds)).mp (refreshes r' updated read data holds kept)
    · intro drops r' updated read data holds kept
      by_cases accepts : s.store.Accepts draw
      · obtain ⟨r'', updated', appended⟩ := update_of_accepts accepts
        cases updated.symm.trans updated'
        exact (answer_append_iff appended (stored holds)).mpr (drops accepts read data holds kept)
      · rw [update_of_not_accepts accepts] at updated
        cases updated

/-- In every state that a run of the service reaches, every read returns what the
repository returns, iff each `log` of the run drops the cached answers that its entry
changes. -/
theorem audit_cache_transparent_iff (sha256 : String → List UInt8) (repair : List UInt8 → String)
    (coerce : Option Json → Option (Option String)) (options : AuditCacheOptions) (r : Repository)
    (clock : Int) (calls : List Call) :
    Along (step sha256 repair coerce options) (DropsAffected repair coerce) (new r clock) calls ↔
      ∀ before, before <+: calls →
        Transparent sha256 repair coerce options
          (run (step sha256 repair coerce options) (new r clock) before) := by
  have sameStep : step sha256 repair coerce options = (service sha256 repair coerce options).step :=
    funext₂ step_eq
  rw [sameStep]
  refine (ReadThrough.transparent_iff (fun s call current => refreshes_iff current call)
    (ReadThrough.current_empty r clock) calls).trans ?_
  exact forall₂_congr fun _ _ => transparent_iff_reads.symm

/-- The query without filters. -/
def everything : QueryObject where
  query := {}
  fieldOrder := QueryField.all
  complete := by
    intro f
    cases f <;> decide
  distinct := by decide

/-- All entries are read, two are logged, and all are read again a millisecond
later: the answer is still the empty list. -/
theorem cached_query_misses_log :
    let options : AuditCacheOptions := ⟨60000, 100⟩
    let s := run (step utf8Bytes (fun _ => "") (fun _ => none) options) (new (.memory .empty) 0)
      (.read (.query everything) 0 0 :: loginCalls.map .write)
    (s.query utf8Bytes (fun _ => "") (fun _ => none) options everything 1 0).1 = .entries (.ok []) ∧
      (s.store.query everything.query).map (List.map (·.id)) = .ok ["e-1", "e-2"] := by
  decide +kernel

end AuditService

end

end TalentTrust.Audit
