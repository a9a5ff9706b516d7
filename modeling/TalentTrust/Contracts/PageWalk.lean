import TalentTrust.Contracts.Pages

/-!
Following the cursors of `findPage` to the end.

In the SQLite repository contracts may be inserted, deleted and restored between
two pages. On a table with the column `deleted_at` the pages descend by creation
time and id whatever happens, no contract is returned twice, and a contract that
was there at every request is returned; on the table of the migrations there is
no page (`sqlite_walk_under_change`). The repository in memory returns each
contract once exactly when the end of every page cuts its list by the order of
the cursors (`memory_walk_eq_findAll_iff`), which a tie between creation times
may prevent.
-/

namespace TalentTrust.Contracts

open TalentTrust.Lib TalentTrust.Retention

/-! ### Changes of the SQLite table -/

inductive Change where
  | insert (data : CreateContractInput) (id : Uuid) (now : Instant)
  | softDelete (id : String) (now : Instant)
  | restore (id : String) (now : Date) (retentionDays : Int)

/-- A write that is refused leaves the table as it is. -/
def Change.apply (platform : Platform) (store : Store) : Change → Store
  | .insert data id now =>
    match create store data ⟨id.text, platform.toISOString now⟩ with
    | .ok (_, store') => store'
    | .error _ => store
  | .softDelete id now =>
    match delete store id (platform.toISOString now) with
    | .ok store' => store'
    | .error _ => store
  | .restore id now retentionDays =>
    match Sqlite.restore platform store id now retentionDays with
    | .ok (_, store') => store'
    | .error _ => store

section Changes

variable {platform : Platform} {store : Store}

theorem position_of_row? {data : CreateContractInput} {status : ContractStatus} {fresh : Fresh}
    {row : Contract} (made : data.row? status fresh = some row) : row.position = ⟨fresh.now, fresh.id⟩ := by
  unfold CreateContractInput.row? at made
  split at made
  · cases made
    rfl
  · cases made

theorem mark_written (stored : Stored platform store.contracts) {id : String} {c : Contract}
    (held : store.contracts.get? id = some c) (mark : Option String) :
    ∃ c', { store with contracts := store.contracts.set id { c with deletedAt := mark } } =
        { store with contracts := store.contracts.set c'.id c' } ∧
      c'.position.Stamped platform ∧
      ∀ d, store.contracts.get? c'.id = some d → d.createdAt = c'.createdAt := by
  obtain ⟨rfl, stamped⟩ := stored id c held
  refine ⟨{ c with deletedAt := mark }, rfl, stamped, fun d held' => ?_⟩
  obtain rfl := Option.some.inj (held'.symm.trans held)
  rfl

/-- A change writes nothing, or one contract: a new one, or one that keeps its time. -/
theorem Change.apply_cases (stored : Stored platform store.contracts) (change : Change) :
    change.apply platform store = store ∨
      ∃ c, change.apply platform store = { store with contracts := store.contracts.set c.id c } ∧
        c.position.Stamped platform ∧
        ∀ d, store.contracts.get? c.id = some d → d.createdAt = c.createdAt := by
  cases change with
  | insert data id now =>
    rw [Change.apply]
    split
    · rename_i row store' made
      obtain ⟨drawn, ⟨fresh, -⟩, inserted⟩ := (create_ok_iff _ _ _ _).mp made
      obtain ⟨status, -, drawn⟩ := Option.bind_eq_some_iff.mp drawn
      have position := position_of_row? drawn
      refine .inr ⟨row, inserted, ?_, ?_⟩
      · rw [position]
        exact ⟨⟨id, rfl⟩, now, rfl⟩
      · intro d held
        rw [OrderedMap.has, held] at fresh
        cases fresh
    · exact .inl rfl
  | softDelete id now =>
    rw [Change.apply]
    split
    · rename_i store' deleted
      unfold delete at deleted
      split at deleted
      · cases deleted
      · cases deleted
      · rename_i c found
        cases deleted
        exact .inr (mark_written stored (Sqlite.findById_eq_some_iff.mp found).2.1 _)
    · exact .inl rfl
  | restore id now retentionDays =>
    rw [Change.apply]
    split
    · rename_i row store' restored
      unfold Sqlite.restore at restored
      cases checked : restorable platform id ((store.contracts.get? id).map (Sqlite.toContract store))
          now retentionDays with
      | error e =>
        rw [checked] at restored
        cases restored
      | ok c =>
        rw [checked] at restored
        cases restored
        obtain ⟨e, read, rfl⟩ := restorable_ok checked
        obtain ⟨d, held, rfl⟩ := Option.map_eq_some_iff.mp read
        exact .inr (mark_written stored held none)
    · exact .inl rfl

end Changes

structure ContractTable (platform : Platform) where
  store : Store
  stored : Stored platform store.contracts

namespace ContractTable

variable {platform : Platform}

/-- The table is written by the repository only. -/
def apply (table : ContractTable platform) (change : Change) : ContractTable platform where
  store := change.apply platform table.store
  stored := by
    rcases change.apply_cases table.stored with same | ⟨c, written, stamped, -⟩
    · rw [same]
      exact table.stored
    · rw [written]
      exact table.stored.set stamped

def changed (table : ContractTable platform) (changes : List Change) : ContractTable platform :=
  changes.foldl apply table

variable (table : ContractTable platform) (batches : List (List Change))

/-- The table that the `k`-th request meets, with a batch of changes before each
request but the first. -/
def atRequest (k : Nat) : ContractTable platform :=
  table.changed (batches.take k).flatten

/-- The requests of a client that follows the cursors. -/
def pages (limit : PageLimit) (k : Nat) : Option String → Option (List Contract × Option String) :=
  follow (Sqlite.findPage platform (table.atRequest batches k).store) limit

/-- The contracts that the pages of the `k`-th request are cut from. -/
def listed (k : Nat) : List Contract :=
  Sqlite.listed (table.atRequest batches k).store.contracts

variable (table : ContractTable platform) (batches : List (List Change))

theorem createdAt_changed (changes : List Change) {id : String} {c : Contract}
    (held : table.store.contracts.get? id = some c) :
    ∃ d, (table.changed changes).store.contracts.get? id = some d ∧ d.createdAt = c.createdAt := by
  induction changes generalizing table c with
  | nil => exact ⟨c, held, rfl⟩
  | cons change changes ih =>
    have step : ∃ d, (table.apply change).store.contracts.get? id = some d ∧
        d.createdAt = c.createdAt := by
      change ∃ d, (change.apply platform table.store).contracts.get? id = some d ∧ _
      rcases change.apply_cases table.stored with same | ⟨e, written, -, keeps⟩
      · rw [same]
        exact ⟨c, held, rfl⟩
      · rw [written, OrderedMap.get?_set]
        split
        · rename_i sameId
          subst sameId
          exact ⟨e, rfl, (keeps c held).symm⟩
        · exact ⟨c, held, rfl⟩
    obtain ⟨d, now, same⟩ := step
    obtain ⟨e, later, same'⟩ := ih (table.apply change) now
    exact ⟨e, later, same'.trans same⟩

theorem softDeletes_changed (changes : List Change) :
    (table.changed changes).store.softDeletes = table.store.softDeletes := by
  induction changes generalizing table with
  | nil => rfl
  | cons change changes ih =>
    have step : (change.apply platform table.store).softDeletes = table.store.softDeletes := by
      rcases change.apply_cases table.stored with same | ⟨e, written, -, -⟩
      · rw [same]
      · rw [written]
    exact (ih (table.apply change)).trans step

theorem atRequest_of_le {j k : Nat} (le : j ≤ k) :
    ∃ changes, table.atRequest batches k = (table.atRequest batches j).changed changes := by
  refine ⟨((batches.take k).drop j).flatten, ?_⟩
  have split : batches.take k = batches.take j ++ (batches.take k).drop j := by
    conv_lhs => rw [← List.take_append_drop j (batches.take k)]
    rw [List.take_take, Nat.min_eq_left le]
  rw [atRequest, atRequest, changed, changed, changed, ← List.foldl_append, ← List.flatten_append,
    ← split]

theorem atRequest_settled {k : Nat} (le : batches.length ≤ k) :
    table.atRequest batches k = table.atRequest batches batches.length := by
  rw [atRequest, atRequest, List.take_of_length_le le, List.take_length]

section Listed

variable {table : ContractTable platform} {batches : List (List Change)} {j k : Nat} {c : Contract}

theorem get?_of_listed (mem : c ∈ table.listed batches k) :
    (table.atRequest batches k).store.contracts.get? c.id = some c ∧ c.position.Stamped platform :=
  (table.atRequest batches k).stored.get? (Sqlite.mem_listed.mp mem).1

theorem position_of_listed {d : Contract} (first : c ∈ table.listed batches j)
    (second : d ∈ table.listed batches k) (same : c.id = d.id) : c.position = d.position := by
  have ordered : ∀ {j k : Nat} {c d : Contract}, j ≤ k → c ∈ table.listed batches j →
      d ∈ table.listed batches k → c.id = d.id → c.createdAt = d.createdAt := by
    intro j k c d le first second same
    obtain ⟨changes, later⟩ := table.atRequest_of_le batches le
    obtain ⟨e, held, kept⟩ := createdAt_changed _ changes (get?_of_listed first).1
    rw [← later, same, (get?_of_listed second).1] at held
    cases held
    exact kept.symm
  have times : c.createdAt = d.createdAt := by
    rcases Nat.le_total j k with le | le
    · exact ordered le first second same
    · exact (ordered le second first same.symm).symm
  rw [Contract.position, Contract.position, times, same]

theorem listed_of_findById {id : String}
    (found : Sqlite.findById (table.atRequest batches k).store id = .ok (some c)) :
    c ∈ table.listed batches k ∧ c.id = id := by
  obtain ⟨-, held, live⟩ := Sqlite.findById_eq_some_iff.mp found
  have own := ((table.atRequest batches k).stored id c held).1
  exact ⟨Sqlite.mem_listed.mpr ⟨mem_values.mpr ⟨id, held⟩, live⟩, own⟩

end Listed

/-- A walk over the encoded cursors is a walk over positions. -/
theorem walk_pages (has : table.store.softDeletes = true) (limit : PageLimit) (fuel : Nat) :
    walk (table.pages batches limit) fuel 0 none =
      walk (keysetFetch Contract.position (CursorPosition.below byteOrder) limit.size
        (table.listed batches)) fuel 0 none := by
  refine walk_encoded encodeCursor (CursorPosition.Stamped platform) ?_ ?_ fuel 0 none ?_
  · intro k cursor stamped
    have column := (table.softDeletes_changed (batches.take k).flatten).trans has
    exact Sqlite.follow_findPage column (table.atRequest batches k).stored limit stamped
  · intro k c mem
    exact (get?_of_listed mem).2
  · intro p mem
    cases mem

/-- Without the column the first request already fails. -/
theorem walk_pages_of_lacking (lacks : table.store.softDeletes = false) (limit : PageLimit) (fuel : Nat) :
    walk (table.pages batches limit) fuel 0 none = none := by
  have failed : table.pages batches limit 0 none = none := by
    have column := (table.softDeletes_changed (batches.take 0).flatten).trans lacks
    have stamped : ∀ p ∈ (none : Option CursorPosition), p.Stamped platform := by simp
    have position := position_encoded (some limit.number) false stamped
    rw [Option.map_none] at position
    simp only [pages, follow, Sqlite.findPage, atRequest, pageSize_number, position, column]
    rfl
  cases fuel with
  | zero => rfl
  | succ fuel => rw [walk, failed]

/-- What following the cursors is to return: times and ids descend, no contract comes twice, and
one that can be found at every request comes once. -/
structure Complete (n : Nat) (contracts : List Contract) : Prop where
  descending : Descending Contract.position (CursorPosition.below byteOrder) contracts
  distinct : (contracts.map Contract.id).Nodup
  whole : ∀ id, (∀ k ≤ n, ∃ c, Sqlite.findById (table.atRequest batches k).store id = .ok (some c)) →
    (contracts.map Contract.id).count id = 1

theorem walk_complete (has : table.store.softDeletes = true) (limit : PageLimit) :
    ∃ fuel n contracts, walk (table.pages batches limit) fuel 0 none = some (n, contracts) ∧
      table.Complete batches n contracts := by
  have order := strictOrder_below byteOrder
  have settled : ∀ k, batches.length ≤ k → table.listed batches k = table.listed batches batches.length := by
    intro k le
    rw [listed, listed, table.atRequest_settled batches le]
  obtain ⟨fuel, n, contracts, walked⟩ := keyset_walk_ends Contract.position
    (table.listed batches) order limit.positive fun k le p _ => by
      rw [settled k le, settled (k + 1) (by omega)]
  have sorted : ∀ k, Descending Contract.position (CursorPosition.below byteOrder)
      (table.listed batches k) :=
    fun k => Sqlite.descending_listed (table.atRequest batches k).stored
  obtain ⟨descending, complete⟩ := keyset_walk order limit.positive sorted walked
  have listed := (mem_keyset_walk order limit.positive walked).2
  have distinct : (contracts.map Contract.id).Nodup := by
    apply List.pairwise_map.mpr
    apply descending.imp_of_mem
    intro a b memA memB lower same
    obtain ⟨-, i, -, -, first⟩ := listed a memA
    obtain ⟨-, j, -, -, second⟩ := listed b memB
    rw [position_of_listed first second same, order.irrefl] at lower
    cases lower
  refine ⟨fuel, n, contracts, (table.walk_pages batches has limit fuel).trans walked, descending, distinct, ?_⟩
  intro id present
  obtain ⟨c, found⟩ := present 0 (Nat.zero_le n)
  obtain ⟨first, own⟩ := listed_of_findById found
  obtain ⟨e, mem, position⟩ := complete c.position rfl (by
    intro j _ le
    obtain ⟨d, found'⟩ := present j le
    obtain ⟨later, own'⟩ := listed_of_findById found'
    exact ⟨d, later, position_of_listed later first (own'.trans own.symm)⟩)
  have sameId : e.id = id := (congrArg CursorPosition.id position).trans own
  apply List.count_eq_one_of_mem distinct
  rw [← sameId]
  exact List.mem_map_of_mem mem

end ContractTable

/-- Following the cursors of the SQLite repository, with any changes between the pages, reaches
the end and returns what it is to return, exactly when the table has the column `deleted_at`. -/
theorem sqlite_walk_under_change (platform : Platform) (table : ContractTable platform)
    (limit : PageLimit) (batches : List (List Change)) :
    (∃ fuel n contracts, walk (table.pages batches limit) fuel 0 none = some (n, contracts) ∧
      table.Complete batches n contracts) ↔ table.store.softDeletes = true := by
  constructor
  · rintro ⟨fuel, n, contracts, walked, -⟩
    by_contra lacks
    rw [table.walk_pages_of_lacking batches (Bool.eq_false_iff.mpr lacks)] at walked
    cases walked
  · intro has
    exact table.walk_complete batches has limit

/-- The tables of the migrations, before anything is written. -/
def ContractTable.migrated (platform : Platform) : ContractTable platform where
  store := .migrated [] .empty
  stored := by
    intro id c held
    cases held

/-- Their first page is refused, and so there is no walk. -/
theorem migrated_table_has_no_page :
    Sqlite.findPage default (ContractTable.migrated default).store {} =
        .error "no such column: deleted_at" ∧
      ∀ fuel, walk ((ContractTable.migrated default).pages [] ⟨1, by decide, by decide⟩) fuel 0 none =
        none :=
  ⟨rfl, ContractTable.walk_pages_of_lacking _ _ (migrated_softDeletes _ _) _⟩

/-! ### The repository in memory -/

namespace InMemoryContractRepository

variable {platform : Platform} (repo : InMemoryContractRepository platform) (limit : PageLimit)

/-- At the end of each page, the contracts listed after it are those that come
after its last one by time and id. -/
def PagesCut : Prop :=
  ∀ i, (i + 1) * limit.size < (repo.findAll false).length →
    SplitsAt Contract.position (CursorPosition.below codeUnitOrder) (repo.findAll false)
      ((i + 1) * limit.size)

theorem walk_pages (fuel : Nat) :
    walk (fun _ => follow repo.findPage limit) fuel 0 none =
      walk (keysetFetch Contract.position (CursorPosition.below codeUnitOrder) limit.size
        fun _ => repo.findAll false) fuel 0 none := by
  refine walk_encoded encodeCursor (CursorPosition.Stamped platform) ?_ ?_ fuel 0 none ?_
  · intro k cursor stamped
    exact repo.follow_findPage limit stamped
  · intro k c mem
    exact (repo.stored.get? (mem_findAll mem)).2
  · intro p mem
    cases mem

end InMemoryContractRepository

/-- Following the cursors of the repository in memory ends. Its pages make up
`findAll`, or only contain each contract once, exactly when every page end cuts
the list by the order of the cursors. -/
theorem memory_walk_eq_findAll_iff (platform : Platform) (repo : InMemoryContractRepository platform)
    (limit : PageLimit) :
    ∃ fuel n contracts, walk (fun _ => follow repo.findPage limit) fuel 0 none = some (n, contracts) ∧
      (contracts = repo.findAll false ↔ repo.PagesCut limit) ∧
      (contracts.Perm (repo.findAll false) ↔ repo.PagesCut limit) := by
  have order := strictOrder_below codeUnitOrder
  obtain ⟨fuel, n, contracts, walked⟩ := keyset_walk_ends Contract.position
    (fun _ => repo.findAll false) order limit.positive (m := 0) fun _ _ _ _ => le_rfl
  have start : rowsAfter Contract.position (CursorPosition.below codeUnitOrder) (repo.findAll false) none =
      (repo.findAll false).drop (0 * limit.size) := by
    rw [Nat.zero_mul]
    exact List.filter_eq_self.mpr fun _ _ => rfl
  have whole : (repo.findAll false).drop (0 * limit.size) = repo.findAll false := by
    rw [Nat.zero_mul, List.drop_zero]
  have cut : contracts.Perm (repo.findAll false) → repo.PagesCut limit := by
    intro each i inside
    exact splits_of_walk_perm order limit.positive repo.nodup_findAll.of_map start walked
      (whole.symm ▸ each) (Nat.zero_le i) inside
  have exact : repo.PagesCut limit → contracts = repo.findAll false := by
    intro splits
    exact (walk_eq_of_splits limit.positive splits start walked).trans whole
  refine ⟨fuel, n, contracts, (repo.walk_pages limit fuel).trans walked, ⟨?_, exact⟩, cut, ?_⟩
  · rintro rfl
    exact cut (List.Perm.refl _)
  · intro splits
    exact exact splits ▸ List.Perm.refl _

/-- Two contracts of one time, the one with the larger id created first. -/
def tied (platform : Platform) (now : Instant) : InMemoryContractRepository platform :=
  let data : NewContract :=
    { title := "Website", clientId := "client", amount := Decimal.ofNat 100 }
  let repo := (InMemoryContractRepository.empty.create data
    ⟨"ffffffff-ffff-4fff-bfff-ffffffffffff", by decide, List.all_iff_forall_prop.mp (by decide)⟩ now).2
  (repo.create data
    ⟨"00000000-0000-4000-8000-000000000000", by decide, List.all_iff_forall_prop.mp (by decide)⟩ now).2

theorem mergeSort_pair {le : Contract → Contract → Bool} {a b : Contract} (after : le a b = false) :
    [a, b].mergeSort le = [b, a] := by
  simp [List.mergeSort, List.MergeSort.Internal.splitInTwo, after]

theorem findAll_tied (platform : Platform) (now : Instant) :
    ∃ first second, (tied platform now).findAll false = [second, first] ∧
      first.position.below codeUnitOrder second.position = false := by
  obtain ⟨first, second, held, times, firstId, secondId, orders, live⟩ :
      ∃ first second, values (tied platform now).contracts = [first, second] ∧
        first.createdAt = second.createdAt ∧ first.id = "ffffffff-ffff-4fff-bfff-ffffffffffff" ∧
        second.id = "00000000-0000-4000-8000-000000000000" ∧
        (tied platform now).before first second = false ∧
        first.deletedAt = none ∧ second.deletedAt = none := by
    refine ⟨_, _, rfl, rfl, rfl, rfl, ?_, rfl, rfl⟩
    simp only [InMemoryContractRepository.before, tied, InMemoryContractRepository.create]
    rw [platform.localeCompare_self]
    rfl
  refine ⟨first, second, ?_, ?_⟩
  · simp only [InMemoryContractRepository.findAll, held, mergeSort_pair orders]
    simp [isSoftDeleted, live]
  · have ids : codeUnitOrder.less first.id second.id = false := by
      rw [firstId, secondId]
      decide +kernel
    have time : codeUnitOrder.less first.createdAt second.createdAt = false := by
      rw [times, Collation.less_self]
    rw [CursorPosition.below, Bool.or_eq_false_iff, Bool.and_eq_false_imp]
    exact ⟨time, fun _ => ids⟩

/-- With one contract on a page, the walk ends after the second one created and
never returns the first. -/
theorem memory_walk_misses_tied :
    let repo := tied default ⟨0, by decide, by decide⟩
    ∃ first second, repo.findAll false = [second, first] ∧
      walk (fun _ => follow repo.findPage ⟨1, by decide, by decide⟩) 2 0 none = some (1, [second]) := by
  intro repo
  obtain ⟨first, second, listed, later⟩ := findAll_tied default ⟨0, by decide, by decide⟩
  refine ⟨first, second, listed, ?_⟩
  have irrefl := (strictOrder_below codeUnitOrder).irrefl second.position
  rw [InMemoryContractRepository.walk_pages, listed]
  simp [walk, keysetFetch, pageAfter, rowsAfter, later, irrefl]

end TalentTrust.Contracts
