import TalentTrust.Lib.OrderedMap
import TalentTrust.Lib.Run
import Mathlib.Algebra.Order.Field.Rat

/-!
`utils/swrCache.ts`: the stale-while-revalidate cache and its fetches.

A call of `get` answers from the cache, or awaits a fetch: its own, or the one in
`activeFetches`. A fetch gives way while its fetcher runs and then stores what
came of it. A run is a list of calls of `get` and `delete`, of fetchers that
settle and of callers that go on, in any order. Fetchers call the cache, if they
do, after they have given way. In every run the cache stays within its capacity
(`size_le_maxEntries`).

`revalidate` puts the promise of the fetch into `activeFetches` after the fetch
has begun, and the fetch takes it out again when it ends. A fetcher that throws
at once ends the fetch before its promise is put there, so the key stays in
`activeFetches` for good (`single_flight_iff`).
-/

namespace TalentTrust.SWRCache

open TalentTrust.Lib

variable {α ε : Type}

/-! ### Entries -/

structure CacheEntry (α : Type) where
  data : α
  updatedAt : Int
  deriving DecidableEq

structure CacheOptions where
  ttlMs : ℚ
  swrMs : ℚ
  deriving DecidableEq

inductive Source where
  | upstream
  | cacheFresh
  | cacheStale
  deriving DecidableEq, Repr

structure SWRResult (α : Type) where
  data : α
  degraded : Bool
  source : Source
  deriving DecidableEq

/-- The constructor refuses a capacity that is not a positive integer. -/
structure Config where
  maxEntries : Nat
  positive : 0 < maxEntries

def defaultConfig : Config := ⟨1000, by decide⟩

inductive Freshness where
  | fresh
  | stale
  | expired
  deriving DecidableEq, Repr

/-- The age of an entry against the windows of a call. -/
def freshness (options : CacheOptions) (now : Int) (entry : CacheEntry α) : Freshness :=
  let age : ℚ := ((now - entry.updatedAt : Int) : ℚ)
  if age < options.ttlMs then .fresh
  else if age < options.ttlMs + options.swrMs then .stale
  else .expired

abbrev Entries (α : Type) := OrderedMap String (CacheEntry α)

/-- The entry becomes the most recently used one. -/
def touch (key : String) (entry : CacheEntry α) (cache : Entries α) : Entries α :=
  (cache.erase key).set key entry

def touchIfPresent (key : String) (cache : Entries α) : Entries α :=
  match cache.get? key with
  | none => cache
  | some entry => touch key entry cache

/-- Entries that were used longest ago go until the capacity is met. -/
def setEntry (config : Config) (key : String) (entry : CacheEntry α) (cache : Entries α) : Entries α :=
  let cache := touch key entry cache
  cache.dropOldest (cache.size - config.maxEntries)

/-! ### Fetches and callers -/

inductive Fetcher (ε : Type) where
  | gives
  | throws (err : ε)
  deriving DecidableEq

inductive FetchStatus (α ε : Type) where
  | running
  | resolved (data : α)
  | rejected (err : ε)
  deriving DecidableEq

structure Fetch (α ε : Type) where
  key : String
  status : FetchStatus α ε
  deriving DecidableEq

/-- Where a call of `get` stands. -/
inductive Call (α ε : Type) where
  | awaiting (key : String) (fetch : Nat) (coalesced : Bool)
  | returned (result : SWRResult α)
  | failed (err : ε)
  deriving DecidableEq

structure State (α ε : Type) where
  cache : Entries α
  /-- A promise is the number of its fetch. -/
  activeFetches : OrderedMap String Nat
  fetches : List (Fetch α ε)
  calls : List (Call α ε)
  /-- The keys whose fetcher has been called, in that order. -/
  invoked : List String
  /-- What went to the log and to `onRevalidationError`. -/
  reported : List (String × ε)

def State.initial : State α ε := ⟨.empty, .empty, [], [], [], []⟩

/-- `revalidate` up to the point where the fetcher has given way, or has thrown. -/
def revalidate (key : String) (fetcher : Fetcher ε) (s : State α ε) : State α ε :=
  let i := s.fetches.length
  let s := { s with invoked := s.invoked ++ [key] }
  match fetcher with
  | .gives =>
    { s with
      fetches := s.fetches ++ [⟨key, .running⟩]
      activeFetches := s.activeFetches.set key i }
  | .throws err =>
    -- The `finally` of the fetch runs before its promise is put into the map.
    { s with
      fetches := s.fetches ++ [⟨key, .rejected err⟩]
      reported := s.reported ++ [(key, err)]
      activeFetches := (s.activeFetches.erase key).set key i }

def State.return (s : State α ε) (result : SWRResult α) : State α ε :=
  { s with calls := s.calls ++ [.returned result] }

variable (key : String) (fetcher : Fetcher ε)

/-- A miss: join the fetch of the key, or begin one. -/
def fetchOrJoin (s : State α ε) : State α ε :=
  match s.activeFetches.get? key with
  | some i => { s with calls := s.calls ++ [.awaiting key i true] }
  | none =>
    let i := s.fetches.length
    let s := revalidate key fetcher s
    { s with calls := s.calls ++ [.awaiting key i false] }

/-- `get` up to its first `await`. -/
def get (options : CacheOptions) (now : Int) (s : State α ε) : State α ε :=
  match s.cache.get? key with
  | none => fetchOrJoin key fetcher s
  | some entry =>
    match freshness options now entry with
    | .fresh =>
      let s := { s with cache := touch key entry s.cache }
      s.return ⟨entry.data, false, .cacheFresh⟩
    | .stale =>
      let s := if s.activeFetches.has key then s else revalidate key fetcher s
      let s := { s with cache := touch key entry s.cache }
      s.return ⟨entry.data, true, .cacheStale⟩
    | .expired => fetchOrJoin key fetcher s

/-- The fetcher of a fetch settles. -/
def settle (config : Config) (i : Nat) (outcome : Except ε α) (now : Int) (s : State α ε) :
    State α ε :=
  match s.fetches[i]? with
  | some ⟨key, .running⟩ =>
    let s := { s with activeFetches := s.activeFetches.erase key }
    match outcome with
    | .ok data =>
      { s with
        cache := setEntry config key ⟨data, now⟩ s.cache
        fetches := s.fetches.set i ⟨key, .resolved data⟩ }
    | .error err =>
      { s with
        reported := s.reported ++ [(key, err)]
        fetches := s.fetches.set i ⟨key, .rejected err⟩ }
  | _ => s

/-- A caller goes on when the fetch it awaits has settled. -/
def resume (j : Nat) (s : State α ε) : State α ε :=
  match s.calls[j]? with
  | some (.awaiting key i coalesced) =>
    match s.fetches[i]? with
    | some ⟨_, .resolved data⟩ =>
      { s with
        cache := if coalesced then touchIfPresent key s.cache else s.cache
        calls := s.calls.set j (.returned ⟨data, false, .upstream⟩) }
    | some ⟨_, .rejected err⟩ => { s with calls := s.calls.set j (.failed err) }
    | _ => s
  | _ => s

inductive Event (α ε : Type) where
  | get (key : String) (fetcher : Fetcher ε) (options : CacheOptions) (now : Int)
  | delete (key : String)
  | settle (fetch : Nat) (outcome : Except ε α) (now : Int)
  | resume (call : Nat)

def step (config : Config) (s : State α ε) : Event α ε → State α ε
  | .get key fetcher options now => get key fetcher options now s
  | .delete key => { s with cache := s.cache.erase key }
  | .settle i outcome now => settle config i outcome now s
  | .resume j => resume j s

/-! ### The capacity -/

theorem size_touch_le {entry : CacheEntry α} {cache : Entries α}
    (found : cache.get? key = some entry) : (touch key entry cache).size ≤ cache.size :=
  ((cache.erase key).size_set_le key entry).trans (cache.size_erase_lt found)

theorem size_get_le (options : CacheOptions) (now : Int) (s : State α ε) :
    (get key fetcher options now s).cache.size ≤ s.cache.size := by
  simp only [get, fetchOrJoin, revalidate, State.return]
  repeat' split
  all_goals first | exact le_rfl | exact size_touch_le key (by assumption)

theorem size_step_le (config : Config) (s : State α ε) (e : Event α ε)
    (within : s.cache.size ≤ config.maxEntries) : (step config s e).cache.size ≤ config.maxEntries := by
  cases e with
  | get key fetcher options now => exact (size_get_le key fetcher options now s).trans within
  | delete key => exact (List.length_filter_le _ _).trans within
  | settle i outcome now =>
    simp only [step, settle]
    split
    · cases outcome with
      | ok data =>
        simp only [setEntry, OrderedMap.dropOldest, OrderedMap.size, List.length_drop]
        omega
      | error err => exact within
    · exact within
  | resume j =>
    simp only [step, resume, touchIfPresent]
    repeat' split
    all_goals first | exact within | exact (size_touch_le _ (by assumption)).trans within

/-- In every run the cache holds at most `maxEntries` entries. -/
theorem size_le_maxEntries (config : Config) (events : List (Event α ε)) :
    (run (step config) (.initial : State α ε) events).cache.size ≤ config.maxEntries :=
  run_invariant (size_step_le config) (Nat.zero_le _) events

/-! ### Registered fetches -/

/-- A fetch for this key that has not settled. -/
def Runs (s : State α ε) (i : Nat) (key : String) : Prop := s.fetches[i]? = some ⟨key, .running⟩

/-- `activeFetches` holds exactly the fetches that run. -/
def Registered (s : State α ε) : Prop :=
  ∀ key i, s.activeFetches.get? key = some i ↔ Runs s i key

variable {s : State α ε} (registered : Registered s)

include registered

theorem Registered.of_eq {s' : State α ε}
    (active : s'.activeFetches = s.activeFetches) (fetches : s'.fetches = s.fetches) :
    Registered s' := by
  unfold Registered Runs at *
  rwa [active, fetches]

variable {key : String}

theorem Registered.not_runs (absent : s.activeFetches.get? key = none)
    (i : Nat) : ¬ Runs s i key := by
  intro runs
  rw [(registered key i).mpr runs] at absent
  cases absent

theorem Registered.revalidate (absent : s.activeFetches.get? key = none)
    : Registered (revalidate key .gives s) := by
  intro other i
  have runs_iff : Runs (SWRCache.revalidate key .gives s) i other ↔
      Runs s i other ∨ i = s.fetches.length ∧ other = key := by
    simp only [Runs, SWRCache.revalidate, List.getElem?_append]
    split
    · rename_i inside
      exact ⟨.inl, fun h => h.resolve_right fun h => absurd h.1 inside.ne⟩
    · rename_i outside
      have beyond : s.fetches[i]? = none := List.getElem?_eq_none (Nat.le_of_not_lt outside)
      rw [beyond]
      by_cases here : i = s.fetches.length
      · simp [here, eq_comm]
      · have later : i - s.fetches.length ≠ 0 := by omega
        simp [here, later]
  rw [runs_iff, ← registered other i]
  simp only [SWRCache.revalidate, OrderedMap.get?_set]
  by_cases same : other = key
  · subst same
    simp [absent, eq_comm]
  · simp [same]

theorem Registered.settle {i : Nat} (runs : Runs s i key)
    {status : FetchStatus α ε} (settled : status ≠ .running) :
    ∀ other j, (s.activeFetches.erase key).get? other = some j ↔
      (s.fetches.set i ⟨key, status⟩)[j]? = some ⟨other, .running⟩ := by
  intro other j
  have bound : i < s.fetches.length := (List.getElem?_eq_some_iff.mp runs).1
  rw [OrderedMap.get?_erase]
  by_cases here : j = i
  · subst here
    rw [List.getElem?_set_self bound]
    refine iff_of_false ?_ fun same => settled (congrArg Fetch.status (Option.some.inj same))
    split
    · exact nofun
    · rename_i different
      intro found
      have other_runs : Runs s j other := (registered other j).mp found
      exact different (congrArg Fetch.key (Option.some.inj (other_runs.symm.trans runs)))
  · rw [List.getElem?_set_ne (Ne.symm here)]
    split
    · rename_i same
      subst same
      refine iff_of_false nofun fun runs' => here ?_
      have first := (registered other i).mpr runs
      have second := (registered other j).mpr runs'
      exact Option.some.inj (second.symm.trans first)
    · exact registered other j

omit registered

variable (options : CacheOptions) (now : Int)

variable (s key) in
/-- The call has to call its fetcher: it is no fresh hit, and no fetch is registered. -/
def Invokes : Prop :=
  s.activeFetches.get? key = none ∧
    ∀ entry ∈ s.cache.get? key, freshness options now entry ≠ .fresh

variable (s key) in
/-- The key is not cached, or its entry has expired. -/
def Misses : Prop :=
  ∀ entry ∈ s.cache.get? key, freshness options now entry = .expired

theorem invokes_of_misses {options : CacheOptions} {now : Int}
    (absent : s.activeFetches.get? key = none) (misses : Misses s key options now) :
    Invokes s key options now := by
  refine ⟨absent, fun entry found fresh => ?_⟩
  rw [misses entry found] at fresh
  cases fresh

/-- What a call of `get` does to the fetches. -/
theorem get_fetches (key : String) (fetcher : Fetcher ε) (options : CacheOptions) (now : Int)
    (s : State α ε) :
    Invokes s key options now ∧
        (get key fetcher options now s).activeFetches = (revalidate key fetcher s).activeFetches ∧
        (get key fetcher options now s).fetches = (revalidate key fetcher s).fetches ∧
        (get key fetcher options now s).invoked = s.invoked ++ [key] ∨
      ¬ Invokes s key options now ∧
        (get key fetcher options now s).activeFetches = s.activeFetches ∧
        (get key fetcher options now s).fetches = s.fetches := by
  have invoked : (revalidate key fetcher s).invoked = s.invoked ++ [key] := by
    cases fetcher <;> rfl
  have joined : (s.activeFetches.get? key = none ∧
        (fetchOrJoin key fetcher s).activeFetches = (revalidate key fetcher s).activeFetches ∧
        (fetchOrJoin key fetcher s).fetches = (revalidate key fetcher s).fetches ∧
        (fetchOrJoin key fetcher s).invoked = s.invoked ++ [key]) ∨
      s.activeFetches.get? key ≠ none ∧
        (fetchOrJoin key fetcher s).activeFetches = s.activeFetches ∧
        (fetchOrJoin key fetcher s).fetches = s.fetches := by
    unfold fetchOrJoin
    cases active : s.activeFetches.get? key with
    | some i => right; simp
    | none => left; simp [invoked]
  unfold get Invokes
  cases cached : s.cache.get? key with
  | none => simpa using joined
  | some entry =>
    simp only [Option.mem_def, Option.some.injEq, forall_eq']
    cases age : freshness options now entry with
    | fresh => right; simp [State.return]
    | expired => simpa using joined
    | stale =>
      cases active : s.activeFetches.get? key with
      | some i =>
        right
        simp [State.return, OrderedMap.has, active]
      | none =>
        left
        simp [State.return, OrderedMap.has, active, invoked]

/-- A fetcher that is called does not throw at once. -/
def GivesWay (s : State α ε) : Event α ε → Prop
  | .get key (.throws _) options now => ¬ Invokes s key options now
  | _ => True

theorem registered_step (config : Config) (s : State α ε) (e : Event α ε)
    (registered : Registered s) (cond : GivesWay s e) : Registered (step config s e) := by
  cases e with
  | get key fetcher options now =>
    rcases get_fetches key fetcher options now s with
      ⟨invokes, active, fetches, _⟩ | ⟨_, active, fetches⟩
    · cases fetcher with
      | throws err => exact absurd invokes cond
      | gives => exact (registered.revalidate invokes.1).of_eq active fetches
    · exact registered.of_eq active fetches
  | delete key => exact registered.of_eq rfl rfl
  | settle i outcome now =>
    simp only [step, settle]
    split
    · rename_i key runs
      cases outcome with
      | ok data | error err => exact registered.settle runs nofun
    · exact registered
  | resume j =>
    simp only [step, resume]
    split
    · split <;> exact registered.of_eq rfl rfl
    · exact registered

/-! ### Single flight -/

/-- At most one fetch of a key runs; `activeFetches` has a key iff a fetch of it runs; and a
miss on a key without such a fetch calls the fetcher. -/
structure SingleFlight (config : Config) (s : State α ε) : Prop where
  single : ∀ key i j, Runs s i key → Runs s j key → i = j
  tracked : ∀ key, s.activeFetches.has key = true ↔ ∃ i, Runs s i key
  retries : ∀ key fetcher options now, (∀ i, ¬ Runs s i key) → Misses s key options now →
    (step config s (.get key fetcher options now)).invoked = s.invoked ++ [key]

theorem Registered.singleFlight (registered : Registered s) (config : Config) :
    SingleFlight config s where
  single key i j first second :=
    Option.some.inj (((registered key i).mpr first).symm.trans ((registered key j).mpr second))
  tracked key := by
    rw [OrderedMap.has, Option.isSome_iff_exists]
    exact exists_congr fun i => registered key i
  retries key fetcher options now idle misses := by
    have absent : s.activeFetches.get? key = none := by
      rw [Option.eq_none_iff_forall_not_mem]
      exact fun i found => idle i ((registered key i).mp found)
    rcases get_fetches key fetcher options now s with ⟨_, _, _, invoked⟩ | ⟨other, _⟩
    · exact invoked
    · exact absurd (invokes_of_misses absent misses) other

/-- A fetcher that throws at once leaves its key behind. -/
theorem GivesWay.of_singleFlight {config : Config} {e : Event α ε} (registered : Registered s)
    (next : SingleFlight config (step config s e)) : GivesWay s e := by
  match e with
  | .get key (.throws err) options now =>
    intro invokes
    rcases get_fetches key (.throws err) options now s with
      ⟨_, active, fetches, _⟩ | ⟨other, _⟩
    · have left : (step config s (.get key (.throws err) options now)).activeFetches.has key = true := by
        simp [step, active, revalidate, OrderedMap.has]
      obtain ⟨i, runs⟩ := (next.tracked key).mp left
      have runs_before : Runs s i key := by
        simp only [Runs, step, fetches, revalidate, List.getElem?_append] at runs
        split at runs
        · exact runs
        · cases List.mem_singleton.mp (List.mem_of_getElem? runs)
      exact registered.not_runs invokes.1 i runs_before
    · exact other invokes
  | .get _ .gives _ _ | .delete _ | .settle _ _ _ | .resume _ => trivial

/-- Every state of a run keeps to one registered fetch for each key, and retries, iff no
fetcher that is called throws at once. -/
theorem single_flight_iff (config : Config) (events : List (Event α ε)) :
    Along (step config) GivesWay (.initial : State α ε) events ↔
      ∀ fs, fs <+: events → SingleFlight config (run (step config) .initial fs) := by
  have start : Registered (.initial : State α ε) := by
    intro key i
    simp [State.initial, Runs, OrderedMap.get?, OrderedMap.empty]
  exact along_iff_always (fun s e registered cond => registered_step config s e registered cond)
    (fun s registered => registered.singleFlight config)
    (fun s e registered next => .of_singleFlight registered next) start

/-- A fetcher throws at once. Its fetch has settled, but the key is still registered: a later
miss, long after, does not call its fetcher and fails with the old error. -/
theorem key_left_by_throw :
    let options : CacheOptions := ⟨1000, 1000⟩
    let events : List (Event Nat String) :=
      [.get "k" (.throws "boom") options 0, .get "k" .gives options 10000, .resume 1]
    let s := run (step defaultConfig) .initial events
    s.invoked = ["k"] ∧ s.activeFetches.has "k" = true ∧ s.fetches = [⟨"k", .rejected "boom"⟩] ∧
      s.calls = [.awaiting "k" 0 false, .failed "boom"] := by
  decide +kernel

/-! ### One call at a time -/

/-- A call that is awaited: the fetch it begins, if any, settles and the caller goes on before
anything else happens. -/
def await (config : Config) (key : String) (options : CacheOptions) (asked settled : Int)
    (fetched : Except ε α) (s : State α ε) : State α ε :=
  run (step config) s
    [.get key .gives options asked, .settle s.fetches.length fetched settled, .resume s.calls.length]

/-- What a call of `get` has come to, if it has returned or failed. -/
def State.outcome (s : State α ε) (j : Nat) : Option (Except ε α) :=
  match s.calls[j]? with
  | some (.returned result) => some (.ok result.data)
  | some (.failed err) => some (.error err)
  | _ => none

def Idle (s : State α ε) : Prop := ∀ key, s.activeFetches.get? key = none

theorem get?_touch (key k : String) (entry : CacheEntry α) (cache : Entries α) :
    (touch key entry cache).get? k = if k = key then some entry else cache.get? k := by
  rw [touch, OrderedMap.get?_set, OrderedMap.get?_erase]
  split <;> rfl

theorem get?_of_setEntry {config : Config} {k : String} {entry e : CacheEntry α} {cache : Entries α}
    (held : (setEntry config key entry cache).get? k = some e) :
    k = key ∧ e = entry ∨ cache.get? k = some e := by
  have touched := OrderedMap.get?_of_dropOldest held
  rw [get?_touch] at touched
  split at touched
  · exact .inl ⟨‹_›, (Option.some.inj touched).symm⟩
  · exact .inr touched

section Await

variable (config : Config) {key : String} (options : CacheOptions) {asked settled : Int}
  {fetched : Except ε α} {s : State α ε}

theorem await_of_fresh {entry : CacheEntry α} (held : s.cache.get? key = some entry)
    (fresh : freshness options asked entry = .fresh) :
    await config key options asked settled fetched s =
      { s with
        cache := touch key entry s.cache
        calls := s.calls ++ [.returned ⟨entry.data, false, .cacheFresh⟩] } := by
  simp [await, step, get, held, fresh, settle, resume, State.return]

/-- Without an entry the call fetches: what it has fetched is stored, and a fetch that fails
leaves the cache as it was. -/
theorem await_of_absent (asked settled : Int) (idle : Idle s) (absent : s.cache.get? key = none) :
    Idle (await config key options asked settled fetched s) ∧
      (await config key options asked settled fetched s).cache =
        (match fetched with
        | .ok data => setEntry config key ⟨data, settled⟩ s.cache
        | .error _ => s.cache) ∧
      (await config key options asked settled fetched s).calls = s.calls ++
        [match fetched with
        | .ok data => .returned ⟨data, false, .upstream⟩
        | .error err => .failed err] := by
  have none' := idle key
  cases fetched with
  | ok _ | error _ =>
    refine ⟨fun k => ?_, ?_, ?_⟩
    · simp [await, step, get, absent, fetchOrJoin, none', revalidate, settle, resume,
        OrderedMap.get?_erase, OrderedMap.get?_set, idle k]
    iterate 2 simp [await, step, get, absent, fetchOrJoin, none', revalidate, settle, resume]

end Await

end TalentTrust.SWRCache
