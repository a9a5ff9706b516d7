import TalentTrust.Lib.Json
import TalentTrust.Lib.OrderedMap

/-!
Retained data and where it is stored: `retention/types.ts` and
`retention/storage.ts`.

A storage provider is a state with operations that obey the laws of a map from
ids to records; the in-memory provider is one (`inMemory`). The storage manager
has two of them and picks one by the storage type. All that it holds of an id is
a `Cell`: what the local provider has and what the archive provider has. Every
operation of the manager acts on the cell of one id.
-/

namespace TalentTrust.Retention

open TalentTrust.Lib

/-! ### Types -/

inductive RetentionPeriod where
  | thirtyDays
  | ninetyDays
  | sixMonths
  | oneYear
  | twoYears
  | indefinite
  deriving DecidableEq, Repr

inductive DataClassification where
  | unrestricted
  | internal
  | confidential
  | restricted
  deriving DecidableEq, Repr

inductive ArchivalStorageType where
  | localStorage
  | cloud
  | coldStorage
  | encryptedArchive
  deriving DecidableEq, Repr

def ArchivalStorageType.text : ArchivalStorageType → String
  | .localStorage => "local"
  | .cloud => "cloud"
  | .coldStorage => "cold_storage"
  | .encryptedArchive => "encrypted_archive"

inductive DataEntityType where
  | contract
  | userProfile
  | transaction
  | auditLog
  | document
  | message
  deriving DecidableEq, Repr

def DataEntityType.text : DataEntityType → String
  | .contract => "contract"
  | .userProfile => "user_profile"
  | .transaction => "transaction"
  | .auditLog => "audit_log"
  | .document => "document"
  | .message => "message"

/-! ### Times -/

/-- The largest time value of a `Date`, in milliseconds. -/
def maxTime : Int := 8640000000000000

/-- A `Date`; without a time it is an invalid one. -/
structure Date where
  time : Option Int
  deriving DecidableEq

def Date.ofTime (t : Int) : Date := ⟨if -maxTime ≤ t ∧ t ≤ maxTime then some t else none⟩

/-- `a <= b`: no comparison with an invalid date holds. -/
def Date.le (a b : Date) : Bool :=
  match a.time, b.time with
  | some s, some t => s ≤ t
  | _, _ => false

def Date.lt (a b : Date) : Bool :=
  match a.time, b.time with
  | some s, some t => s < t
  | _, _ => false

/-- A reading of the clock: `new Date()` is valid. -/
structure Instant where
  ms : Int
  least : -maxTime ≤ ms
  greatest : ms ≤ maxTime
  deriving DecidableEq

def Instant.date (now : Instant) : Date := ⟨some now.ms⟩

/-- `days * 24 * 60 * 60 * 1000`. -/
def daysMs (days : Nat) : Int := days * 86400000

/-! ### Records -/

structure RetainedData where
  id : String
  entityType : DataEntityType
  data : Json
  classification : DataClassification
  createdAt : Date
  expiresAt : Date
  archivedAt : Option Date
  archivedLocation : Option String
  isArchived : Bool
  retentionPolicyId : Option String
  metadata : Option (List (String × Json))
  deriving DecidableEq

/-! ### Providers -/

/-- `IStorageProvider`, with the laws of a map from ids to records. `store` returns the id of
the record, and `delete` whether there was one. -/
structure StorageProvider (S : Type) where
  store : RetainedData → S → S
  retrieve : S → String → Option RetainedData
  delete : String → S → S
  list : S → List RetainedData
  retrieve_id : ∀ s id data, retrieve s id = some data → data.id = id
  retrieve_store : ∀ s data id,
    retrieve (store data s) id = if id = data.id then some data else retrieve s id
  retrieve_delete : ∀ s key id,
    retrieve (delete key s) id = if id = key then none else retrieve s id
  mem_list : ∀ s data, data ∈ list s ↔ retrieve s data.id = some data

/-- `InMemoryStorageProvider`: every record stands at its own id. -/
structure InMemoryStorage where
  storage : OrderedMap String RetainedData
  keyed : ∀ id data, storage.get? id = some data → data.id = id

namespace InMemoryStorage

theorem keyed_empty (id : String) (data : RetainedData)
    (h : (OrderedMap.empty : OrderedMap String RetainedData).get? id = some data) :
    data.id = id := by
  cases h

def empty : InMemoryStorage where
  storage := .empty
  keyed := keyed_empty

variable (s : InMemoryStorage) (data : RetainedData)

theorem keyed_set (id : String) (found : RetainedData)
    (h : (s.storage.set data.id data).get? id = some found) : found.id = id := by
  rw [OrderedMap.get?_set] at h
  split at h
  · rename_i here
    cases h
    exact here.symm
  · exact s.keyed id found h

theorem keyed_erase (key id : String) (found : RetainedData)
    (h : (s.storage.erase key).get? id = some found) : found.id = id :=
  s.keyed id found (OrderedMap.get?_of_erase h)

theorem mem_values_iff :
    data ∈ s.storage.entries.map Prod.snd ↔ s.storage.get? data.id = some data := by
  constructor
  · intro mem
    obtain ⟨⟨id, found⟩, entry, rfl⟩ := List.mem_map.mp mem
    have here := OrderedMap.get?_eq_some_iff.mpr entry
    rwa [s.keyed id found here]
  · intro found
    exact List.mem_map.mpr ⟨_, OrderedMap.get?_eq_some_iff.mp found, rfl⟩

end InMemoryStorage

def inMemory : StorageProvider InMemoryStorage where
  store data s := ⟨s.storage.set data.id data, s.keyed_set data⟩
  retrieve s id := s.storage.get? id
  delete id s := ⟨s.storage.erase id, s.keyed_erase id⟩
  list s := s.storage.entries.map Prod.snd
  retrieve_id s := s.keyed
  retrieve_store s data id := OrderedMap.get?_set s.storage data.id id data
  retrieve_delete s key id := OrderedMap.get?_erase s.storage key id
  mem_list := InMemoryStorage.mem_values_iff

/-! ### The storage manager -/

structure Providers (L A : Type) where
  localProvider : StorageProvider L
  archiveProvider : StorageProvider A

/-- What the providers of a `StorageManager` hold. -/
structure Storage (L A : Type) where
  localData : L
  archiveData : A

/-- `getProvider` answers with the archive provider. -/
def ArchivalStorageType.archives : ArchivalStorageType → Bool
  | .coldStorage | .encryptedArchive => true
  | .localStorage | .cloud => false

variable {L A : Type} (P : Providers L A)

namespace Storage

/-- `store` returns the id that the provider returns. -/
def store (data : RetainedData) (storageType : ArchivalStorageType) (s : Storage L A) :
    String × Storage L A :=
  if storageType.archives then
    (data.id, { s with archiveData := P.archiveProvider.store data s.archiveData })
  else (data.id, { s with localData := P.localProvider.store data s.localData })

variable (id : String) (storageType : ArchivalStorageType) (s : Storage L A)

def retrieve : Option RetainedData :=
  if storageType.archives then P.archiveProvider.retrieve s.archiveData id
  else P.localProvider.retrieve s.localData id

def delete : Bool × Storage L A :=
  ((s.retrieve P id storageType).isSome,
    if storageType.archives then { s with archiveData := P.archiveProvider.delete id s.archiveData }
    else { s with localData := P.localProvider.delete id s.localData })

def list : List RetainedData :=
  if storageType.archives then P.archiveProvider.list s.archiveData
  else P.localProvider.list s.localData

def moveData (fromType toType : ArchivalStorageType) (s : Storage L A) : Bool × Storage L A :=
  match s.retrieve P id fromType with
  | none => (false, s)
  | some data =>
    let (stored, s) := s.store P data toType
    -- An empty id is not truthy.
    if stored = "" then (false, s) else (true, (s.delete P id fromType).2)

end Storage

/-! ### Cells -/

/-- What is held of one id. -/
structure Cell where
  active : Option RetainedData
  archived : Option RetainedData

namespace Cell

def put (data : RetainedData) (storageType : ArchivalStorageType) (c : Cell) : Cell :=
  if storageType.archives then { c with archived := some data } else { c with active := some data }

variable (storageType : ArchivalStorageType) (c : Cell)

def drop : Cell :=
  if storageType.archives then { c with archived := none } else { c with active := none }

def read : Option RetainedData :=
  if storageType.archives then c.archived else c.active

end Cell

namespace Storage

variable (s : Storage L A)

def cell (id : String) : Cell where
  active := P.localProvider.retrieve s.localData id
  archived := P.archiveProvider.retrieve s.archiveData id

theorem retrieve_eq (id : String) (storageType : ArchivalStorageType) :
    s.retrieve P id storageType = (s.cell P id).read storageType := rfl

theorem cell_store (data : RetainedData) (storageType : ArchivalStorageType) (id : String) :
    (s.store P data storageType).2.cell P id =
      if id = data.id then (s.cell P id).put data storageType else s.cell P id := by
  unfold store cell Cell.put
  cases storageType.archives <;> by_cases here : id = data.id <;>
    simp [here, P.localProvider.retrieve_store, P.archiveProvider.retrieve_store]

theorem cell_delete (key : String) (storageType : ArchivalStorageType) (id : String) :
    (s.delete P key storageType).2.cell P id =
      if id = key then (s.cell P id).drop storageType else s.cell P id := by
  unfold delete cell Cell.drop
  cases storageType.archives <;> by_cases here : id = key <;>
    simp [here, P.localProvider.retrieve_delete, P.archiveProvider.retrieve_delete]

variable (storageType : ArchivalStorageType)

theorem mem_list_iff (data : RetainedData) :
    data ∈ s.list P storageType ↔ (s.cell P data.id).read storageType = some data := by
  unfold list cell Cell.read
  cases storageType.archives
  · exact P.localProvider.mem_list s.localData data
  · exact P.archiveProvider.mem_list s.archiveData data

variable {data : RetainedData} {id : String}

theorem id_of_read {storageType : ArchivalStorageType}
    (found : (s.cell P id).read storageType = some data) : data.id = id := by
  unfold cell Cell.read at found
  split at found
  · exact P.archiveProvider.retrieve_id _ _ _ found
  · exact P.localProvider.retrieve_id _ _ _ found

theorem id_of_active (found : (s.cell P id).active = some data) : data.id = id :=
  P.localProvider.retrieve_id _ _ _ found

theorem id_of_archived (found : (s.cell P id).archived = some data) : data.id = id :=
  P.archiveProvider.retrieve_id _ _ _ found

theorem exists_mem_list_iff (chosen : RetainedData → Bool) (id : String) :
    (∃ data ∈ s.list P storageType, chosen data = true ∧ id = data.id) ↔
      ∃ data ∈ (s.cell P id).read storageType, chosen data = true := by
  constructor
  · rintro ⟨data, mem, passes, rfl⟩
    exact ⟨data, (s.mem_list_iff P storageType data).mp mem, passes⟩
  · rintro ⟨data, found, passes⟩
    have named : data.id = id := s.id_of_read P found
    exact ⟨data, (s.mem_list_iff P storageType data).mpr (named ▸ found), passes, named.symm⟩

end Storage

end TalentTrust.Retention
