import TalentTrust.Lib.OrderedMap

/-!
`InMemoryIdempotencyStore` of `db/idempotencyStore.ts`.

Records live in a `Map` and expire after `ttlMs`. An expired record is dropped
when it is looked up, by the sweep, and when a new key meets a full map; a map
that is still full then gives up its oldest entry. Nothing here invents a
record: whatever the store holds was set under its key, and the last record set
is the only one a key can have (`records_set`).
-/

namespace TalentTrust.Http

open TalentTrust.Lib

structure IdempotencyRecord (α : Type) where
  payloadHash : String
  result : α
  createdAt : Int
  expiresAt : Int
  deriving DecidableEq

/-- A record as it is passed to `set`: without an expiry of its own, the
store's time to live decides. -/
structure NewRecord (α : Type) where
  key : String
  payloadHash : String
  result : α
  createdAt : Int
  expiresAt : Option Int := none
  deriving DecidableEq

structure IdempotencyStore (α : Type) where
  ttlMs : Int := 60 * 60 * 1000
  maxSize : Nat := 10000
  records : OrderedMap String (IdempotencyRecord α)
  deriving DecidableEq

namespace IdempotencyStore

variable {α : Type}

/-- A store made by `new InMemoryIdempotencyStore()`. -/
def fresh : IdempotencyStore α := { records := OrderedMap.empty }

variable (store : IdempotencyStore α)

/-- `get`, which deletes the record it finds expired. -/
def get (key : String) (now : Int) : Option (IdempotencyRecord α) × IdempotencyStore α :=
  match store.records.get? key with
  | none => (none, store)
  | some record =>
    if record.expiresAt ≤ now then (none, { store with records := store.records.erase key })
    else (some record, store)

def purgeExpired (now : Int) : IdempotencyStore α :=
  { store with records := store.records.filter fun entry => now < entry.2.expiresAt }

/-- Remove the first entry of the map, if there is one. -/
def evictOldest : IdempotencyStore α :=
  match store.records.oldest? with
  | none => store
  | some firstKey => { store with records := store.records.erase firstKey }

/-- What `set` does before it writes: make room for a key that is new to a full map. -/
def makeRoom (key : String) (now : Int) : IdempotencyStore α :=
  if store.maxSize ≤ store.records.size ∧ store.records.has key = false then
    let purged := store.purgeExpired now
    if purged.maxSize ≤ purged.records.size then purged.evictOldest else purged
  else store

def set (record : NewRecord α) (now : Int) : IdempotencyStore α :=
  let room := store.makeRoom record.key now
  { room with
    records := room.records.set record.key
      { payloadHash := record.payloadHash
        result := record.result
        createdAt := record.createdAt
        expiresAt := record.expiresAt.getD (now + store.ttlMs) } }

/-! ### What the operations keep -/

/-- Every record of `new` is a record of `old`. -/
def Within (new old : IdempotencyStore α) : Prop :=
  ∀ key record, new.records.get? key = some record → old.records.get? key = some record

variable (store : IdempotencyStore α) (key : String)

theorem within_refl : Within store store := fun _ _ h => h

theorem Within.trans {a b c : IdempotencyStore α} (ab : Within a b) (bc : Within b c) : Within a c :=
  fun key record h => bc key record (ab key record h)

theorem erase_within : Within { store with records := store.records.erase key } store :=
  fun _ _ h => OrderedMap.get?_of_erase h

variable (now : Int)

theorem purgeExpired_within : Within (store.purgeExpired now) store :=
  fun _ _ h => (OrderedMap.get?_of_filter h).1

theorem evictOldest_within : Within store.evictOldest store := by
  unfold evictOldest
  split
  · exact within_refl store
  · exact erase_within store _

theorem makeRoom_within : Within (store.makeRoom key now) store := by
  unfold makeRoom
  split
  · dsimp only
    split
    · exact (evictOldest_within _).trans (purgeExpired_within store now)
    · exact purgeExpired_within store now
  · exact within_refl store

theorem get_within : Within (store.get key now).2 store := by
  unfold get
  split
  · exact within_refl store
  · split
    · exact erase_within store key
    · exact within_refl store

variable {record : IdempotencyRecord α} {store : IdempotencyStore α}

theorem records_of_get {key : String} {now : Int}
    (found : (store.get key now).1 = some record) : store.records.get? key = some record := by
  unfold get at found
  split at found
  · cases found
  · rename_i held
    split at found
    · cases found
    · rw [held, ← Option.some.inj found]

/-- After `set`, a record is the one just set or one that was there under another key. -/
theorem records_set {new : NewRecord α} {now : Int} {key : String}
    (held : (store.set new now).records.get? key = some record) :
    (key = new.key ∧ record.payloadHash = new.payloadHash ∧ record.result = new.result) ∨
      (key ≠ new.key ∧ store.records.get? key = some record) := by
  simp only [set] at held
  rw [OrderedMap.get?_set] at held
  split at held
  · rename_i same
    cases held
    exact .inl ⟨same, rfl, rfl⟩
  · rename_i other
    exact .inr ⟨other, makeRoom_within store new.key now _ _ held⟩

end IdempotencyStore

end TalentTrust.Http
