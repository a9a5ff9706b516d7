import TalentTrust.Lib.OrderedMap

/-!
`AuthCache` (`auth/authCache.ts`): validated API keys by selector, with a time
to live and eviction of the entry that was used least recently.

`Only Q cache` says that every cached answer satisfies `Q`. Reading, evicting
and invalidating keep it for any `Q`, a write keeps it if the new answer
satisfies `Q`, and invalidating a user leaves only answers of other users.
-/

namespace TalentTrust.Auth

open TalentTrust.Lib

/-- A point in time as a record has it: a `Date`, or its ISO text once the record
went through the JSON file. -/
inductive Stamp where
  | date (ms : Int)
  | text (ms : Int)
  deriving DecidableEq

def Stamp.ms : Stamp → Int
  | .date ms | .text ms => ms

/-- `JSON.parse(JSON.stringify(stamp))`. -/
def Stamp.toJson (stamp : Stamp) : Stamp := .text stamp.ms

structure ApiKeyInfo where
  id : Nat
  name : String
  scope : List String
  createdBy : String
  createdAt : Stamp
  expiresAt : Option Stamp
  deriving DecidableEq

structure AuthCacheOptions where
  ttlMs : Int
  maxEntries : Nat
  deriving DecidableEq

structure CacheEntry where
  info : ApiKeyInfo
  expiresAt : Int
  lastAccessed : Int
  deriving DecidableEq

abbrev AuthCache := OrderedMap String CacheEntry

namespace AuthCache

variable (options : AuthCacheOptions) (cache : AuthCache)

/-- The cached answer, and the cache after the access. -/
def get (selector : String) (now : Int) : Option ApiKeyInfo × AuthCache :=
  match cache.get? selector with
  | none => (none, cache)
  | some entry =>
    if entry.expiresAt < now then (none, cache.erase selector)
    else (some entry.info, OrderedMap.set cache selector { entry with lastAccessed := now })

/-- The selector with the earliest access; the first one wins. -/
def oldestSelector : Option String :=
  (cache.entries.foldl (fun (oldest : Option (String × Int)) e =>
    match oldest with
    | some (_, accessed) => if e.2.lastAccessed < accessed then some (e.1, e.2.lastAccessed) else oldest
    | none => some (e.1, e.2.lastAccessed)) none).map Prod.fst

def evictOldest : AuthCache :=
  match oldestSelector cache with
  | none => cache
  | some selector => cache.erase selector

def set (selector : String) (info : ApiKeyInfo) (now : Int) : AuthCache :=
  let room := if options.maxEntries ≤ cache.size ∧ cache.has selector = false then evictOldest cache
    else cache
  OrderedMap.set room selector ⟨info, now + options.ttlMs, now⟩

def invalidate (selector : String) : AuthCache := cache.erase selector

def invalidateByUserId (userId : String) : AuthCache :=
  cache.filter fun e => e.2.info.createdBy ≠ userId

/-! ### What the cached answers satisfy -/

def Only (Q : String → ApiKeyInfo → Prop) (cache : AuthCache) : Prop :=
  ∀ selector entry, cache.get? selector = some entry → Q selector entry.info

variable {options} {Q : String → ApiKeyInfo → Prop} {cache : AuthCache}

theorem Only.imp {R : String → ApiKeyInfo → Prop} (only : Only Q cache)
    (weaker : ∀ selector info, Q selector info → R selector info) : Only R cache :=
  fun selector entry found => weaker selector entry.info (only selector entry found)

theorem only_empty : Only Q OrderedMap.empty := by
  intro selector entry found
  cases found

theorem Only.erase (only : Only Q cache) (selector : String) : Only Q (cache.erase selector) :=
  fun other entry found => only other entry (OrderedMap.get?_of_erase found)

variable {selector : String}

theorem Only.put (only : Only Q cache) {entry : CacheEntry} (fine : Q selector entry.info) :
    Only Q (OrderedMap.set cache selector entry) := by
  intro other entry' found
  by_cases same : other = selector
  · subst same
    rw [OrderedMap.get?_set_self] at found
    cases found
    exact fine
  · rw [OrderedMap.get?_set_of_ne _ _ same] at found
    exact only other entry' found

variable {info : ApiKeyInfo} (only : Only Q cache)

include only

theorem Only.of_get {now : Int} (hit : (get cache selector now).1 = some info)
    : Q selector info := by
  unfold get at hit
  cases found : cache.get? selector with
  | none => simp [found] at hit
  | some entry =>
    simp only [found] at hit
    split at hit
    · cases hit
    · cases hit
      exact only selector entry found

theorem Only.get (selector : String) (now : Int) : Only Q (AuthCache.get cache selector now).2 := by
  unfold AuthCache.get
  cases found : cache.get? selector with
  | none => exact only
  | some entry =>
    simp only
    split
    · exact only.erase selector
    · exact only.put (only selector entry found)

theorem Only.set (now : Int) (fine : Q selector info) :
    Only Q (AuthCache.set options cache selector info now) := by
  have evicted : Only Q (evictOldest cache) := by
    unfold evictOldest
    split
    · exact only
    · exact only.erase _
  refine Only.put ?_ fine
  split
  · exact evicted
  · exact only

theorem Only.invalidateByUserId (userId : String) :
    Only (fun selector info => Q selector info ∧ info.createdBy ≠ userId)
      (AuthCache.invalidateByUserId cache userId) := by
  intro selector entry found
  obtain ⟨before, kept⟩ := OrderedMap.get?_of_filter found
  exact ⟨only selector entry before, by simpa using kept⟩

end AuthCache

end TalentTrust.Auth
