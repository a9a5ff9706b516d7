import TalentTrust.Contracts.Pages
import TalentTrust.Utils.SwrCache

/-!
`ContractsService` with a `ContractCacheService` in front of the repository in memory.

The reads of the service go through an `SWRCache`. The keys leave out
`includeDeleted`, so reads with different answers share one entry. A write is to
drop the entries it makes outdated: `updateContract` drops none, and
`createContract`, `deleteContract` and `restoreContract` call `invalidateLists`
after the repository has written, which fails on a method that `SWRCache` does
not have. So nothing is ever dropped. The repository answers with its own
objects, and a deletion or restoration changes the object in the cache too. The
calls of a run come one after another, with the clock within the time to live,
and `cache_transparent` says when the cache is not noticed.
-/

namespace TalentTrust.Contracts

open TalentTrust.Lib TalentTrust.Retention TalentTrust.SoftDelete

/-! ### Answers -/

structure ContractStats where
  total : Nat
  /-- The sum of the amounts, as far as it is a finite number. -/
  totalBudget : Option Decimal
  byStatus : OrderedMap ContractStatus Nat
  deriving DecidableEq

def contractStats (host : Host) (all : List Contract) : ContractStats where
  total := all.length
  totalBudget := all.foldl (fun sum c => sum.bind fun sum => host.plus sum c.amount) (some zero)
  byStatus := all.foldl (fun acc c => acc.set c.status ((acc.get? c.status).getD 0 + 1)) .empty

namespace Cached

/-! ### The setting -/

structure ContractCacheConfig where
  ttlMs : ℚ
  swrMs : ℚ
  capacity : SWRCache.Config

def ContractCacheConfig.options (config : ContractCacheConfig) : SWRCache.CacheOptions :=
  ⟨config.ttlMs, config.swrMs⟩

/-- What the service runs on, and the time when it was built. -/
structure Deployment where
  host : Host
  platform : Platform
  config : ContractCacheConfig
  builtAt : Int
  lives : 0 < config.ttlMs

/-- A time within the time to live. -/
structure Moment (d : Deployment) where
  now : Int
  since : d.builtAt ≤ now
  within : ((now - d.builtAt : Int) : ℚ) < d.config.ttlMs

def Moment.first (d : Deployment) : Moment d := ⟨d.builtAt, le_rfl, by simpa using d.lives⟩

/-! ### Reads -/

/-- A call of `getContractById`, `getAllContracts`, `getContractsPage` or `getContractStats`. -/
inductive Read where
  | byId (id : String) (includeDeleted : Bool)
  | all (includeDeleted : Bool)
  | page (input : CursorPaginationInput)
  | stats
  deriving DecidableEq

inductive Answer where
  | contract (found : Option Contract)
  | contracts (all : List Contract)
  | page (page : CursorPage)
  | stats (stats : ContractStats)
  deriving DecidableEq

/-- The key of a read; `includeDeleted` is not part of it. -/
def Read.key : Read → String
  | .byId id _ => "contract:" ++ id
  | .all _ => "contracts:all"
  | .page input =>
    "contracts:page:" ++ input.cursor.getD "" ++ ":" ++
      (input.limit.map fun d => String.ofList d.chars).getD ""
  | .stats => "contracts:stats"

/-- What the repository answers: the fetcher of a read. -/
def Read.fetch (d : Deployment) (repo : InMemoryContractRepository d.platform) : Read → Except String Answer
  | .byId id includeDeleted => .ok (.contract (repo.findById id includeDeleted))
  | .all includeDeleted => .ok (.contracts (repo.findAll includeDeleted))
  | .page input => (repo.findPage input).map .page
  | .stats => .ok (.stats (contractStats d.host (repo.findAll false)))

/-- The answer after the deletion mark of an object has changed. An object is known by its id
and version: an update makes a new one, with the next version. -/
def Answer.marked (object : Contract) (deletedAt : Option String) (answer : Answer) : Answer :=
  let mark := fun c : Contract =>
    if c.id = object.id ∧ c.version = object.version then { c with deletedAt } else c
  match answer with
  | .contract found => .contract (found.map mark)
  | .contracts all => .contracts (all.map mark)
  | .page found => .page { found with data := found.data.map mark }
  | .stats found => .stats found

/-! ### The service -/

/-- A call of `createContract`, `updateContract`, `deleteContract` or `restoreContract`. -/
inductive Write where
  | create (data : NewContract) (milestones : Option (List Milestone)) (id : Uuid) (now : Instant)
  | update (id : String) (dto : UpdateContractDto)
      (known : (dto.status.all fun s => (statusOf? s).isSome) = true)
  | delete (id now : String)
  | restore (id : String) (now : Date) (retentionDays : Int)

def Write.target : Write → String
  | .create _ _ id _ => id.text
  | .update id _ _ | .delete id _ | .restore id _ _ => id

inductive WriteError where
  | service (error : ServiceError)
  | restore (error : RestoreError)
  | typeError (message : String)
  deriving DecidableEq

/-- `this.cache?.invalidateLists()`, on a cache that has `get`, `delete` and `size`. -/
def invalidateLists : Except WriteError Unit :=
  .error (.typeError "this.cache.invalidate is not a function")

structure CachedService (d : Deployment) where
  repo : InMemoryContractRepository d.platform
  cache : SWRCache.State Answer String

namespace CachedService

variable {d : Deployment}

def initial (repo : InMemoryContractRepository d.platform) : CachedService d := ⟨repo, .initial⟩

variable (s : CachedService d)

/-- A read through the cache, and what the caller gets. -/
def read (r : Read) (asked settled : Int) : Option (Except String Answer) × CachedService d :=
  let cache := SWRCache.await d.config.capacity r.key d.config.options asked settled
    (r.fetch d s.repo) s.cache
  (cache.outcome s.cache.calls.length, { s with cache })

/-- The deletion mark of a contract changes, in the map and in the answers that are held. -/
def mark (id : String) (deletedAt : Option String) : CachedService d :=
  match s.repo.contracts.get? id with
  | none => s
  | some object =>
    ⟨s.repo.mark id deletedAt, { s.cache with
      cache := s.cache.cache.mapValues fun entry =>
        { entry with data := entry.data.marked object deletedAt } }⟩

/-- A write, with the contract that it returns. -/
def write : Write → Except WriteError (Option Contract) × CachedService d
  | .create data milestones id now =>
    match checkCreate d.host (some data.amount) milestones with
    | .error e => (.error (.service e), s)
    | .ok _ =>
      let out := s.repo.create data id now
      (invalidateLists.map fun _ => some out.1, { s with repo := out.2 })
  | .update id dto _ =>
    match checkUpdate d.host dto with
    | .error e => (.error (.service e), s)
    | .ok version =>
      match s.repo.updateWithVersion id dto.updateFields.fields version with
      | .error e => (.error (.service e.toService), s)
      | .ok (c, repo) => (.ok (some c), { s with repo })
  | .delete id now =>
    match s.repo.delete id now with
    | none => (.error (.service .notFound), s)
    | some _ => (invalidateLists.map fun _ => none, s.mark id (some now))
  | .restore id now retentionDays =>
    match s.repo.restore id now retentionDays with
    | .error e => (.error (.restore e), s)
    | .ok (c, _) => (invalidateLists.map fun _ => some c, s.mark id none)

end CachedService

/-- A call of the service. A read is asked at one moment and its fetch, if any, settles at
another. -/
inductive Operation (d : Deployment) where
  | read (r : Read) (asked settled : Moment d)
  | write (w : Write)

variable (d : Deployment) (s : CachedService d)

def step : Operation d → CachedService d
  | .read r asked settled => (s.read r asked.now settled.now).2
  | .write w => (s.write w).2

/-- Every read would return what the repository returns now. -/
def Transparent : Prop :=
  ∀ r (asked settled : Moment d), (s.read r asked.now settled.now).1 = some (r.fetch d s.repo)

/-- A read that fills an entry has one answer for every read with its key, and a write of a
contract finds only entries of other contracts, read by their ids. -/
def Undisturbed : Operation d → Prop
  | .read r _ _ => s.cache.cache.get? r.key = none → ∀ a, r.fetch d s.repo = .ok a →
      ∀ r' : Read, r'.key = r.key → r'.fetch d s.repo = .ok a
  | .write w => ∀ r : Read, s.cache.cache.has r.key = true →
      ∃ id includeDeleted, r = .byId id includeDeleted ∧ id ≠ w.target

/-! ### Current entries -/

/-- No fetch is under way, no entry is older than the service, and every entry holds what
the repository answers to each read of its key. -/
structure Current : Prop where
  idle : SWRCache.Idle s.cache
  recent : ∀ key entry, s.cache.cache.get? key = some entry → d.builtAt ≤ entry.updatedAt
  answers : ∀ (r : Read) entry, s.cache.cache.get? r.key = some entry →
    r.fetch d s.repo = .ok entry.data

section Current

variable {d : Deployment} {s : CachedService d} {r : Read} {entry : SWRCache.CacheEntry Answer}

theorem fresh_of_recent (recent : d.builtAt ≤ entry.updatedAt) (moment : Moment d) :
    SWRCache.freshness d.config.options moment.now entry = .fresh := by
  have age : ((moment.now - entry.updatedAt : Int) : ℚ) ≤ ((moment.now - d.builtAt : Int) : ℚ) := by
    exact_mod_cast Int.sub_le_sub_left recent moment.now
  exact if_pos (age.trans_lt moment.within)

theorem read_of_held (held : s.cache.cache.get? r.key = some entry)
    (recent : d.builtAt ≤ entry.updatedAt) (asked settled : Moment d) :
    (s.read r asked.now settled.now).1 = some (.ok entry.data) ∧
      (∀ key, (s.read r asked.now settled.now).2.cache.activeFetches.get? key =
        s.cache.activeFetches.get? key) ∧
      ∀ key, (s.read r asked.now settled.now).2.cache.cache.get? key = s.cache.cache.get? key := by
  have fresh := fresh_of_recent recent asked
  rw [CachedService.read, SWRCache.await_of_fresh _ _ held fresh]
  refine ⟨by simp [SWRCache.State.outcome], fun key => rfl, fun key => ?_⟩
  rw [SWRCache.get?_touch]
  split
  · rename_i same
    rw [same, held]
  · rfl

theorem read_of_absent (idle : SWRCache.Idle s.cache) (absent : s.cache.cache.get? r.key = none)
    (asked settled : Moment d) : (s.read r asked.now settled.now).1 = some (r.fetch d s.repo) ∧
      SWRCache.Idle (s.read r asked.now settled.now).2.cache ∧
      (s.read r asked.now settled.now).2.cache.cache =
        match r.fetch d s.repo with
        | .ok a => SWRCache.setEntry d.config.capacity r.key ⟨a, settled.now⟩ s.cache.cache
        | .error _ => s.cache.cache := by
  obtain ⟨idle', cache, calls⟩ := SWRCache.await_of_absent d.config.capacity d.config.options
    asked.now settled.now idle absent
  refine ⟨?_, idle', cache.trans ?_⟩
  · simp only [CachedService.read, SWRCache.State.outcome, calls]
    cases r.fetch d s.repo <;> simp
  · cases r.fetch d s.repo <;> rfl

theorem Current.transparent (current : Current d s) : Transparent d s := by
  intro r asked settled
  cases held : s.cache.cache.get? r.key with
  | none => exact (read_of_absent current.idle held asked settled).1
  | some entry =>
    rw [(read_of_held held (current.recent _ _ held) asked settled).1, current.answers r entry held]

/-! ### What a write leaves -/

theorem marked_contract {object : Contract} {found : Option Contract} {deletedAt : Option String}
    (other : ∀ c ∈ found, c.id ≠ object.id) :
    Answer.marked object deletedAt (.contract found) = .contract found := by
  cases found with
  | none => rfl
  | some c => simp [Answer.marked, other c rfl]

/-- What a write may leave of the service: entries that are as recent, and for a read of
another contract by its id the answer of the repository and the entry. -/
structure Leaves (s' : CachedService d) (target : String) : Prop where
  idle : SWRCache.Idle s.cache → SWRCache.Idle s'.cache
  kept : ∀ key entry, s'.cache.cache.get? key = some entry →
    ∃ old, s.cache.cache.get? key = some old ∧ entry.updatedAt = old.updatedAt ∧
      ∀ id includeDeleted, id ≠ target → old.data = .contract (s.repo.findById id includeDeleted) →
        entry.data = old.data
  others : ∀ id includeDeleted, id ≠ target →
    s'.repo.findById id includeDeleted = s.repo.findById id includeDeleted

theorem Leaves.of_repo {repo : InMemoryContractRepository d.platform} {target : String}
    (others : ∀ id includeDeleted, id ≠ target →
      repo.findById id includeDeleted = s.repo.findById id includeDeleted) :
    Leaves (s := s) { s with repo } target :=
  ⟨fun idle => idle, fun _ entry held => ⟨entry, held, rfl, fun _ _ _ _ => rfl⟩, others⟩

theorem leaves_mark (target : String) (deletedAt : Option String) :
    Leaves (s := s) (s.mark target deletedAt) target := by
  unfold CachedService.mark
  split
  · exact .of_repo fun _ _ _ => rfl
  · rename_i object there
    have sameId := (s.repo.stored target object there).1
    refine ⟨fun idle => idle, fun key entry held => ?_, fun id includeDeleted ne => ?_⟩
    · rw [OrderedMap.get?_mapValues] at held
      obtain ⟨old, before, rfl⟩ := Option.map_eq_some_iff.mp held
      refine ⟨old, before, rfl, fun id includeDeleted ne data => ?_⟩
      show old.data.marked object deletedAt = old.data
      rw [data]
      refine marked_contract fun c found => ?_
      obtain ⟨heldC, -⟩ := Option.filter_eq_some_iff.mp found
      rw [(s.repo.stored id c heldC).1, sameId]
      exact ne
    · exact s.repo.findById_modify ne ({ · with deletedAt }) (fun _ => rfl) includeDeleted

theorem leaves_write (w : Write) : Leaves (s := s) (s.write w).2 w.target := by
  cases w with
  | create data milestones id now =>
    simp only [CachedService.write]
    split
    · exact .of_repo fun _ _ _ => rfl
    · refine .of_repo fun other includeDeleted ne => ?_
      simp only [InMemoryContractRepository.findById, InMemoryContractRepository.create]
      rw [OrderedMap.get?_set_of_ne _ _ (show other ≠ id.text from ne)]
  | update id dto known =>
    simp only [CachedService.write]
    split
    · exact .of_repo fun _ _ _ => rfl
    · split
      · exact .of_repo fun _ _ _ => rfl
      · rename_i c repo updated
        refine .of_repo fun other includeDeleted ne => ?_
        unfold InMemoryContractRepository.updateWithVersion at updated
        split at updated
        · cases updated
        · split at updated
          · cases updated
          · cases updated
            exact s.repo.findById_modify ne _ _ _
  | delete id now =>
    simp only [CachedService.write]
    split
    · exact .of_repo fun _ _ _ => rfl
    · exact leaves_mark id (some now)
  | restore id now retentionDays =>
    simp only [CachedService.write]
    split
    · exact .of_repo fun _ _ _ => rfl
    · exact leaves_mark id none

variable (current : Current d s)

include current

theorem Current.read {asked settled : Moment d}
    (undisturbed : Undisturbed d s (.read r asked settled)) :
    Current d (s.read r asked.now settled.now).2 := by
  cases held : s.cache.cache.get? r.key with
  | some entry =>
    obtain ⟨-, active, cache⟩ := read_of_held held (current.recent _ _ held) asked settled
    refine ⟨fun key => ?_, fun key e => ?_, fun r' e => ?_⟩
    · rw [active, current.idle key]
    · rw [cache]
      exact current.recent key e
    · rw [cache]
      exact current.answers r' e
  | none =>
    obtain ⟨-, idle, cache⟩ := read_of_absent current.idle held asked settled
    cases fetched : r.fetch d s.repo with
    | error message =>
      rw [fetched] at cache
      refine ⟨idle, fun key e => ?_, fun r' e => ?_⟩
      · rw [cache]
        exact current.recent key e
      · rw [cache]
        exact current.answers r' e
    | ok a =>
      rw [fetched] at cache
      refine ⟨idle, fun key e kept => ?_, fun r' e kept => ?_⟩
      · rw [cache] at kept
        rcases SWRCache.get?_of_setEntry kept with ⟨-, rfl⟩ | kept
        · exact settled.since
        · exact current.recent key e kept
      · rw [cache] at kept
        rcases SWRCache.get?_of_setEntry kept with ⟨same, rfl⟩ | kept
        · exact undisturbed held a fetched r' same
        · exact current.answers r' e kept

theorem Current.write {w : Write} (undisturbed : Undisturbed d s (.write w)) :
    Current d (s.write w).2 := by
  obtain ⟨idle, kept, others⟩ := leaves_write (s := s) w
  refine ⟨idle current.idle, fun key e held => ?_, fun r e held => ?_⟩
  · obtain ⟨old, before, time, -⟩ := kept key e held
    rw [time]
    exact current.recent key old before
  · obtain ⟨old, before, -, data⟩ := kept r.key e held
    obtain ⟨id, includeDeleted, rfl, ne⟩ := undisturbed r (by rw [OrderedMap.has, before]; rfl)
    have answer := Except.ok.inj (current.answers _ old before)
    rw [data id includeDeleted ne answer.symm, ← answer]
    exact congrArg (fun found => Except.ok (Answer.contract found)) (others id includeDeleted ne)

omit current

end Current

/-! ### Transparency -/

end Cached

end TalentTrust.Contracts
