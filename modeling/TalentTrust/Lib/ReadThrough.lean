import TalentTrust.Lib.OrderedMap
import TalentTrust.Lib.Run

/-!
Reading a store through a cache.

A cell of the cache lives until its time has come, and the one used least
recently is evicted when there is no room. A read answers from the cache or asks
the store and keeps the answer. An update of the store drops some of the keys.
Time only goes forward.

The cache cannot be noticed as long as no update changes the answer to a read
that is still held under a key it does not drop, and only so long
(`transparent_iff`).
-/

namespace TalentTrust.Lib

universe u v

/-! ### A cache with a time to live -/

structure Cell (α : Type v) where
  data : α
  expiresAt : Int
  lastAccessed : Int
  deriving DecidableEq

/-- Cells in the order of insertion. -/
abbrev TtlCache (κ : Type u) (α : Type v) [DecidableEq κ] := OrderedMap κ (Cell α)

namespace TtlCache

variable {κ : Type u} {α : Type v} [DecidableEq κ] (cache : TtlCache κ α)

/-- The data under a key unless its time is over, and the cache after the access. -/
def get (key : κ) (now : Int) : Option α × TtlCache κ α :=
  match cache.get? key with
  | none => (none, cache)
  | some cell =>
    if cell.expiresAt < now then (none, cache.erase key)
    else (some cell.data, OrderedMap.set cache key { cell with lastAccessed := now })

/-- The key with the earliest access; the first one wins. -/
def oldestKey : Option κ :=
  (cache.entries.foldl (fun (oldest : Option (κ × Int)) e =>
    match oldest with
    | some (_, accessed) => if e.2.lastAccessed < accessed then some (e.1, e.2.lastAccessed) else oldest
    | none => some (e.1, e.2.lastAccessed)) none).map Prod.fst

def evictOldest : TtlCache κ α :=
  match oldestKey cache with
  | none => cache
  | some key => cache.erase key

def set (ttl capacity : Int) (cache : TtlCache κ α) (key : κ) (data : α) (now : Int) : TtlCache κ α :=
  let room := if capacity ≤ cache.size ∧ cache.has key = false then evictOldest cache else cache
  OrderedMap.set room key ⟨data, now + ttl, now⟩

/-- The cache holds the data under the key, and the time is not over. -/
def Holds (now : Int) (key : κ) (data : α) : Prop :=
  ∃ cell, cache.get? key = some cell ∧ now ≤ cell.expiresAt ∧ cell.data = data

variable {cache : TtlCache κ α} {now : Int} {key : κ} {data : α}

theorem not_holds_empty : ¬ Holds (OrderedMap.empty : TtlCache κ α) now key data := by
  rintro ⟨cell, found, -⟩
  cases found

theorem Holds.earlier {later : Int} (holds : Holds cache later key data) (le : now ≤ later) :
    Holds cache now key data := by
  obtain ⟨cell, found, alive, same⟩ := holds
  exact ⟨cell, found, Int.le_trans le alive, same⟩

theorem Holds.of_erase {other : κ} (holds : Holds (cache.erase other) now key data) :
    Holds cache now key data := by
  obtain ⟨cell, found, alive⟩ := holds
  exact ⟨cell, OrderedMap.get?_of_erase found, alive⟩

theorem holds_filter (keep : κ → Bool) :
    Holds (cache.filter fun e => keep e.1) now key data ↔ keep key = true ∧ Holds cache now key data := by
  constructor
  · rintro ⟨cell, found, alive⟩
    obtain ⟨before, kept⟩ := OrderedMap.get?_of_filter found
    exact ⟨kept, cell, before, alive⟩
  · rintro ⟨kept, cell, found, alive⟩
    refine ⟨cell, ?_, alive⟩
    rw [OrderedMap.get?_filter, found]
    simp [kept]

theorem get_eq_some_iff : (get cache key now).1 = some data ↔ Holds cache now key data := by
  unfold get Holds
  cases found : cache.get? key with
  | none => simp
  | some cell =>
    by_cases dead : cell.expiresAt < now
    · simp [dead, Int.not_le.mpr dead]
    · simp [dead, Int.not_lt.mp dead]

theorem Holds.of_get {other : κ} {time later : Int} (holds : Holds (get cache other time).2 later key data) :
    Holds cache later key data := by
  unfold get at holds
  cases found : cache.get? other with
  | none => simpa [found] using holds
  | some cell =>
    by_cases dead : cell.expiresAt < time
    · simp only [found, dead, if_true] at holds
      exact holds.of_erase
    · simp only [found, dead, if_false] at holds
      obtain ⟨cell', found', alive, same⟩ := holds
      by_cases isKey : key = other
      · subst isKey
        rw [OrderedMap.get?_set_self] at found'
        cases found'
        exact ⟨cell, found, alive, same⟩
      · rw [OrderedMap.get?_set_of_ne _ _ isKey] at found'
        exact ⟨cell', found', alive, same⟩

theorem Holds.of_set {ttl capacity time later : Int} {other : κ} {data' : α}
    (holds : Holds (set ttl capacity cache other data' time) later key data) :
    (key = other ∧ data = data') ∨ Holds cache later key data := by
  obtain ⟨cell, found, alive, same⟩ := holds
  unfold set at found
  by_cases isKey : key = other
  · subst isKey
    rw [OrderedMap.get?_set_self] at found
    cases found
    exact .inl ⟨rfl, same.symm⟩
  · rw [OrderedMap.get?_set_of_ne _ _ isKey] at found
    refine .inr ⟨cell, ?_, alive, same⟩
    split at found
    · unfold evictOldest at found
      split at found
      · exact found
      · exact OrderedMap.get?_of_erase found
    · exact found

end TtlCache

/-! ### Reading through the cache -/

/-- A store with reads and updates, and how its reads are cached. Reads with one
key have one answer. -/
structure ReadThrough (Store Read Update Answer Key : Type*) where
  answer : Store → Read → Answer
  /-- `none` is an update that fails and changes nothing. -/
  update : Store → Update → Option Store
  key : Read → Key
  cacheable : Answer → Bool
  drops : Update → Key → Bool
  ttl : Int
  capacity : Int
  key_determines : ∀ {r r'}, key r = key r' → ∀ store, answer store r = answer store r'

namespace ReadThrough

variable {Store Read Update Answer Key : Type*} [DecidableEq Key]

structure State (Store Answer Key : Type*) [DecidableEq Key] where
  store : Store
  cache : TtlCache Key Answer
  clock : Int

variable (m : ReadThrough Store Read Update Answer Key)

/-- A read after `wait` ms; the answer of the store takes `work` ms. -/
def read (s : State Store Answer Key) (r : Read) (wait work : Nat) : Answer × State Store Answer Key :=
  let now := s.clock + wait
  let got := s.cache.get (m.key r) now
  match got.1 with
  | some data => (data, { s with cache := got.2, clock := now })
  | none =>
    let data := m.answer s.store r
    let later := now + work
    let cache := if m.cacheable data then got.2.set m.ttl m.capacity (m.key r) data later else got.2
    (data, { s with cache, clock := later })

/-- An update drops keys if it succeeds. -/
def write (s : State Store Answer Key) (u : Update) : State Store Answer Key :=
  match m.update s.store u with
  | none => s
  | some store => { s with store, cache := s.cache.filter fun e => !m.drops u e.1 }

inductive Event (Read Update : Type*) where
  | read (r : Read) (wait work : Nat)
  | write (u : Update)

def step (s : State Store Answer Key) : Event Read Update → State Store Answer Key
  | .read r wait work => (m.read s r wait work).2
  | .write u => m.write s u

/-- Every read, whenever it comes, is answered as the store answers it. -/
def Transparent (s : State Store Answer Key) : Prop :=
  ∀ r wait work, (m.read s r wait work).1 = m.answer s.store r

/-- The update leaves no outdated answer: whatever is held under a key that is
not dropped is what the new store answers. -/
def Refreshes (s : State Store Answer Key) : Event Read Update → Prop
  | .read .. => True
  | .write u => ∀ store, m.update s.store u = some store → ∀ r data,
      s.cache.Holds s.clock (m.key r) data → m.drops u (m.key r) = false →
      m.answer store r = m.answer s.store r

/-- What the cache holds was asked for, and is what the store answers. -/
def Current (s : State Store Answer Key) : Prop :=
  ∀ key data, s.cache.Holds s.clock key data →
    ∃ r, m.key r = key ∧ m.cacheable data = true ∧ m.answer s.store r = data

variable {m} {s : State Store Answer Key}

theorem read_of_hit {r : Read} {wait work : Nat} {data : Answer}
    (hit : s.cache.Holds (s.clock + wait) (m.key r) data) :
    m.read s r wait work =
      (data, { s with cache := (s.cache.get (m.key r) (s.clock + wait)).2, clock := s.clock + wait }) := by
  simp [read, TtlCache.get_eq_some_iff.mpr hit]

theorem read_of_miss {r : Read} {wait : Nat} (work : Nat)
    (miss : ∀ data, ¬ s.cache.Holds (s.clock + wait) (m.key r) data) :
    (m.read s r wait work).1 = m.answer s.store r ∧ (m.read s r wait work).2.store = s.store ∧
      (m.read s r wait work).2.clock = s.clock + wait + work ∧
      ∀ {later key data}, (m.read s r wait work).2.cache.Holds later key data →
        (key = m.key r ∧ data = m.answer s.store r ∧ m.cacheable data = true) ∨
          s.cache.Holds later key data := by
  have missing : (s.cache.get (m.key r) (s.clock + wait)).1 = none := by
    cases found : (s.cache.get (m.key r) (s.clock + wait)).1 with
    | none => rfl
    | some data => exact absurd (TtlCache.get_eq_some_iff.mp found) (miss data)
  simp only [read, missing, true_and]
  intro later key data holds
  split at holds
  · rename_i cacheable
    rcases holds.of_set with ⟨rfl, rfl⟩ | holds
    · exact .inl ⟨rfl, rfl, cacheable⟩
    · exact .inr holds.of_get
  · exact .inr holds.of_get

theorem transparent_of_current (current : m.Current s) : m.Transparent s := by
  intro r wait work
  by_cases hit : ∃ data, s.cache.Holds (s.clock + wait) (m.key r) data
  · obtain ⟨data, holds⟩ := hit
    obtain ⟨r', sameKey, -, answers⟩ := current _ _ (holds.earlier (by omega))
    rw [read_of_hit holds, ← answers]
    exact m.key_determines sameKey s.store
  · exact (read_of_miss work (not_exists.mp hit)).1

theorem current_read (current : m.Current s) (r : Read) (wait work : Nat) :
    m.Current (m.read s r wait work).2 := by
  intro key data holds
  by_cases hit : ∃ data, s.cache.Holds (s.clock + wait) (m.key r) data
  · obtain ⟨data', found⟩ := hit
    rw [read_of_hit found] at holds ⊢
    exact current key data (holds.of_get.earlier (by simp only; omega))
  · obtain ⟨-, sameStore, time, kept⟩ := read_of_miss work (not_exists.mp hit)
    rw [sameStore]
    rcases kept holds with ⟨rfl, rfl, cacheable⟩ | holds
    · exact ⟨r, rfl, cacheable, rfl⟩
    · exact current key data (holds.earlier (by omega))

theorem holds_keep {now : Int} {key : Key} {data : Answer} {cache : TtlCache Key Answer} (u : Update) :
    TtlCache.Holds (cache.filter fun e => !m.drops u e.1) now key data ↔
      m.drops u key = false ∧ cache.Holds now key data := by
  rw [← Bool.not_eq_true']
  exact TtlCache.holds_filter fun key => !m.drops u key

theorem write_eq {u : Update} {store : Store} (updated : m.update s.store u = some store) :
    m.write s u = { s with store, cache := s.cache.filter fun e => !m.drops u e.1 } := by
  rw [write, updated]

theorem current_write (current : m.Current s) {u : Update} (refreshes : m.Refreshes s (.write u)) :
    m.Current (m.write s u) := by
  cases updated : m.update s.store u with
  | none =>
    rw [write, updated]
    exact current
  | some store =>
    rw [write_eq updated]
    intro key data holds
    obtain ⟨kept, held⟩ := (holds_keep u).mp holds
    obtain ⟨r, rfl, cacheable, answers⟩ := current key data held
    refine ⟨r, rfl, cacheable, ?_⟩
    rw [← answers]
    exact refreshes store updated r data held kept

theorem refreshes_of_transparent (current : m.Current s) {u : Update}
    (transparent : m.Transparent (m.write s u)) : m.Refreshes s (.write u) := by
  intro store updated r data holds kept
  rw [write_eq updated] at transparent
  have held : TtlCache.Holds (s.cache.filter fun e => !m.drops u e.1) (s.clock + (0 : Nat)) (m.key r)
      data := by
    apply (holds_keep u).mpr
    exact ⟨kept, holds.earlier (by omega)⟩
  have stillHeld := transparent r 0 0
  rw [read_of_hit held] at stillHeld
  obtain ⟨r', sameKey, -, answers⟩ := current _ _ holds
  exact stillHeld.symm.trans (answers.symm.trans (m.key_determines sameKey s.store))

/-- The cache cannot be noticed in any state of a run iff no update of the run
leaves an outdated answer, in whatever words that condition is put. -/
theorem transparent_iff {cond : State Store Answer Key → Event Read Update → Prop}
    (means : ∀ s e, m.Current s → (m.Refreshes s e ↔ cond s e)) (current : m.Current s)
    (es : List (Event Read Update)) :
    Along m.step cond s es ↔ ∀ fs, fs <+: es → m.Transparent (run m.step s fs) := by
  have keeps : ∀ s e, m.Current s → cond s e → m.Current (m.step s e) := by
    intro s e current met
    cases e with
    | read r wait work => exact current_read current r wait work
    | write u => exact current_write current ((means s _ current).mpr met)
  have needs : ∀ s e, m.Current s → m.Transparent (m.step s e) → cond s e := by
    intro s e current transparent
    apply (means s e current).mp
    cases e with
    | read r wait work => trivial
    | write u => exact refreshes_of_transparent current transparent
  exact along_iff_always keeps (fun s => transparent_of_current) needs current

theorem current_empty (store : Store) (clock : Int) :
    m.Current ⟨store, OrderedMap.empty, clock⟩ := by
  intro key data holds
  exact absurd holds TtlCache.not_holds_empty

end ReadThrough

end TalentTrust.Lib
