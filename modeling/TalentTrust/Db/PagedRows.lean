import TalentTrust.Contracts.Pages
import TalentTrust.Reputation.Repository

/-!
Pages of ratings and of webhook subscriptions: `findByTargetIdPaginated` in
`repositories/reputationRepository.ts` and `findAllPaginated` in
`repositories/webhook-subscription.repository.ts`.

Both select the rows after a cursor in the order of creation time and id, downwards,
with one row more than the page has. A client that follows the cursors sees each row
that was there all the time once, whatever is inserted, updated and deleted between
two requests, and comes to an end when nothing more is added below its cursor
(`walks_complete`).
-/

namespace TalentTrust.PagedRows

open TalentTrust.Lib TalentTrust.Contracts TalentTrust.Reputation

/-! ### Paginated queries -/

section Queries

variable {Row : Type} (platform : Platform) (position : Row → CursorPosition)

structure RowPage (Row : Type) where
  data : List Row
  nextCursor : Option String
  hasNextPage : Bool
  limit : Nat

variable (rows : List Row)

/-- `ORDER BY created_at DESC, id DESC`. -/
def newestFirst : List Row := downwards position (CursorPosition.below byteOrder) rows

/-- The query and the page that is made of it, over the rows that meet the other conditions. -/
def pageOf (limit : Nat) (cursor : Option CursorPosition) : RowPage Row :=
  let found := (newestFirst position
    (rows.filter fun row => cursor.all ((position row).below byteOrder))).take (limit + 1)
  let hasNextPage := limit < found.length
  let data := if hasNextPage then found.take limit else found
  { data
    nextCursor := if hasNextPage then data.getLast?.map fun row => encodeCursor (position row) else none
    hasNextPage
    limit }

def paginate (input : CursorPaginationInput) : Except String (RowPage Row) :=
  match input.pageSize with
  | .error message => .error message
  | .ok limit => (input.position platform).map (pageOf position rows limit)

/-- A client that asks for the page after a cursor. -/
def follow (query : CursorPaginationInput → Except String (RowPage Row)) (limit : PageLimit)
    (cursor : Option String) : Option (List Row × Option String) :=
  match query { limit := some limit.number, cursor } with
  | .ok page => some (page.data, page.nextCursor)
  | .error _ => none

end Queries

/-! ### Ratings -/

def ratingPosition (entry : ReputationEntry) : CursorPosition := ⟨entry.createdAt, entry.id⟩

def findByTargetIdPaginated (platform : Platform) (db : Database) (targetId : String)
    (input : CursorPaginationInput) : Except String (RowPage ReputationEntry) :=
  paginate platform ratingPosition (db.entries.filter fun entry => entry.targetId = targetId) input

theorem entries_of_create {db db' : Database} {entry : CreateReputationEntry} {draw : Draw}
    {row : ReputationEntry} (created : db.create entry draw = .ok (row, db')) :
    db'.entries = db.entries ++ [entry.row draw] := by
  by_cases admits : db.Admits entry draw
  · rw [Database.create_of_admits admits] at created
    cases created
    rfl
  · obtain ⟨failure, refused⟩ := Database.create_of_not_admits admits
    rw [refused] at created
    cases created

/-- Ratings with the ids and times that `create` draws. -/
structure RatingTable (platform : Platform) where
  db : Database
  stamped : ∀ entry ∈ db.entries, (ratingPosition entry).Stamped platform

structure RatingInsert where
  entry : CreateReputationEntry
  id : Uuid
  now : Retention.Instant

variable {platform : Platform}

def RatingTable.insert (table : RatingTable platform) (change : RatingInsert) : RatingTable platform :=
  match created : table.db.create change.entry ⟨change.id.text, platform.toISOString change.now⟩ with
  | .error _ => table
  | .ok (_, db) =>
    { db
      stamped := by
        rw [entries_of_create created, List.forall_mem_append, List.forall_mem_singleton]
        exact ⟨table.stamped, ⟨change.id, rfl⟩, change.now, rfl⟩ }

/-! ### Subscriptions -/

structure WebhookSubscription where
  id : String
  consumerId : Option String
  url : String
  eventType : String
  secret : Option String
  active : Bool
  createdAt : String
  updatedAt : String
  deriving DecidableEq

/-- The filter of a listing; an empty text is taken for none. -/
structure SubscriptionFilter where
  consumerId : Option String := none
  eventType : Option String := none
  active : Option Bool := none
  deriving DecidableEq

def SubscriptionFilter.keeps (filter : SubscriptionFilter) (row : WebhookSubscription) : Bool :=
  ((filter.consumerId.filter (· ≠ "")).all fun consumerId => row.consumerId = some consumerId) &&
    ((filter.eventType.filter (· ≠ "")).all fun eventType => row.eventType = eventType) &&
    filter.active.all fun active => row.active = active

def subscriptionPosition (row : WebhookSubscription) : CursorPosition := ⟨row.createdAt, row.id⟩

def findAllPaginated (platform : Platform) (rows : List WebhookSubscription) (filter : SubscriptionFilter)
    (input : CursorPaginationInput) : Except String (RowPage WebhookSubscription) :=
  paginate platform subscriptionPosition (rows.filter filter.keeps) input

structure SubscriptionTable (platform : Platform) where
  rows : List WebhookSubscription
  ids_differ : (rows.map WebhookSubscription.id).Nodup
  stamped : ∀ row ∈ rows, (subscriptionPosition row).Stamped platform

/-- The writes. In an update, what is `none` stays as it is. -/
inductive SubscriptionChange where
  | create (consumerId : Option String) (url eventType : String) (secret : Option String) (id : Uuid)
    (now : Retention.Instant)
  | update (id : String) (url eventType secret : Option String) (active : Option Bool)
    (now : Retention.Instant)
  | delete (id : String)

/-- The columns that an update sets. -/
def WebhookSubscription.set (row : WebhookSubscription) (url eventType secret : Option String)
    (active : Option Bool) (updatedAt : String) : WebhookSubscription :=
  { row with
    url := url.getD row.url
    eventType := eventType.getD row.eventType
    secret := secret.or row.secret
    active := active.getD row.active
    updatedAt }

def SubscriptionTable.apply (table : SubscriptionTable platform) :
    SubscriptionChange → SubscriptionTable platform
  | .create consumerId url eventType secret id now =>
    if used : id.text ∈ table.rows.map WebhookSubscription.id then table
    else
      { rows := table.rows ++ [⟨id.text, consumerId, url, eventType, secret, true,
          platform.toISOString now, platform.toISOString now⟩]
        ids_differ := by
          rw [List.map_append]
          exact table.ids_differ.append (List.nodup_singleton _) (List.disjoint_singleton.mpr used)
        stamped := by
          rw [List.forall_mem_append, List.forall_mem_singleton]
          exact ⟨table.stamped, ⟨id, rfl⟩, now, rfl⟩ }
  | .update id url eventType secret active now =>
    { rows := table.rows.map fun row =>
        if row.id = id then row.set url eventType secret active (platform.toISOString now) else row
      ids_differ := by
        rw [List.map_map]
        convert table.ids_differ using 2
        funext row
        simp only [Function.comp_apply]
        split <;> rfl
      stamped := by
        rw [List.forall_mem_map]
        intro row mem
        split
        · exact table.stamped row mem
        · exact table.stamped row mem }
  | .delete id =>
    { rows := table.rows.filter fun row => row.id ≠ id
      ids_differ := table.ids_differ.sublist (List.filter_sublist.map _)
      stamped := fun row mem => table.stamped row (List.mem_of_mem_filter mem) }

/-! ### What a walk returns -/

/-- The table that the `k`-th request meets, with a batch of changes after each request. -/
def atRequest {Table Change : Type} (apply : Table → Change → Table) (table : Table)
    (batches : Nat → List Change) : Nat → Table
  | 0 => table
  | k + 1 => (batches k).foldl apply (atRequest apply table batches k)

section Walks

variable {Row : Type} (platform : Platform) (position : Row → CursorPosition) (limit : PageLimit)
  (rows : Nat → List Row)

/-- The position of the cursor that the `k`-th request is made with. -/
def cursorOf : Nat → Option CursorPosition :=
  cursorAt position (CursorPosition.below byteOrder) limit.size fun k => newestFirst position (rows k)

/-- The `k`-th request of a client that follows the cursors of `pages` meets the given rows.
Its cursor is accepted. If the walk ends, the rows that it returned were there, they descend,
and a row that was there at every request is among them once. And it ends, if from some
request on no row is added below the cursor. -/
structure Complete (pages : Nat → Option String → Option (List Row × Option String)) : Prop where
  accepted : ∀ k, ∃ data, pages k ((cursorOf position limit rows k).map encodeCursor) =
    some (data, (cursorOf position limit rows (k + 1)).map encodeCursor)
  returned : ∀ {fuel n found}, walk pages fuel 0 none = some (n, found) →
    (∀ row ∈ found, ∃ k ≤ n, row ∈ rows k) ∧
    Descending position (CursorPosition.below byteOrder) found ∧
    ∀ p, (∀ k ≤ n, p ∈ (rows k).map position) → (found.map position).count p = 1
  ends : ∀ m, (∀ k, m ≤ k → ∀ p ∈ cursorOf position limit rows (k + 1), ∀ row ∈ rows (k + 1),
      (position row).below byteOrder p = true → position row ∈ (rows k).map position) →
    ∃ fuel n found, walk pages fuel 0 none = some (n, found)

variable {platform position rows}

theorem pageOf_eq {rows : List Row} (distinct : (rows.map position).Nodup) (size : Nat)
    (cursor : Option CursorPosition) :
    let page := pageAfter position (CursorPosition.below byteOrder) size (newestFirst position rows) cursor
    (pageOf position rows size cursor).data = page.1 ∧
      (pageOf position rows size cursor).nextCursor = page.2.map encodeCursor := by
  have order := strictOrder_below byteOrder
  obtain ⟨taken, more⟩ := page_of_next size
    (rowsAfter position (CursorPosition.below byteOrder) (newestFirst position rows) cursor)
  have selected : newestFirst position (rows.filter fun row => cursor.all ((position row).below byteOrder)) =
      rowsAfter position (CursorPosition.below byteOrder) (newestFirst position rows) cursor :=
    downwards_filter order below_trichotomous distinct cursor
  simp only [pageOf, selected]
  rw [taken, if_congr more rfl rfl, nextCursor_eq encodeCursor]
  exact ⟨rfl, rfl⟩

theorem mem_newestFirst {rows : List Row} {row : Row} : row ∈ newestFirst position rows ↔ row ∈ rows :=
  (List.mergeSort_perm rows _).mem_iff

theorem stamped_cursorOf (stamped : ∀ k, ∀ row ∈ rows k, (position row).Stamped platform) (k : Nat) :
    ∀ p ∈ cursorOf position limit rows k, p.Stamped platform := by
  cases k with
  | zero =>
    intro p given
    cases given
  | succ k =>
    intro p given
    rcases pageAfter_cases position (CursorPosition.below byteOrder) limit.positive
      (newestFirst position (rows k)) (cursorOf position limit rows k) with
      ⟨-, final⟩ | ⟨front, last, rest, found, -, -, page⟩
    · cases (congrArg Prod.snd final).symm.trans given
    · cases (congrArg Prod.snd page).symm.trans given
      have listed : last ∈ rowsAfter position (CursorPosition.below byteOrder)
          (newestFirst position (rows k)) (cursorOf position limit rows k) := by simp [found]
      exact stamped k last (mem_newestFirst.mp (mem_rowsAfter.mp listed).1)

variable (distinct : ∀ k, ((rows k).map position).Nodup)
    (stamped : ∀ k, ∀ row ∈ rows k, (position row).Stamped platform)

include distinct stamped

theorem complete_of_pages {pages : Nat → Option String → Option (List Row × Option String)}
    (answers : ∀ k, ∀ cursor : Option CursorPosition, (∀ p ∈ cursor, p.Stamped platform) →
      pages k (cursor.map encodeCursor) = some ((pageOf position (rows k) limit.size cursor).data,
        (pageOf position (rows k) limit.size cursor).nextCursor)) :
    Complete position limit rows pages := by
  have order := strictOrder_below byteOrder
  have sorted : ∀ k, Descending position (CursorPosition.below byteOrder) (newestFirst position (rows k)) :=
    fun k => descending_downwards order below_trichotomous (distinct k)
  have fetched (k : Nat) (cursor : Option CursorPosition) (valid : ∀ p ∈ cursor, p.Stamped platform) := by
    have answered := answers k cursor valid
    rwa [(pageOf_eq (distinct k) limit.size cursor).1, (pageOf_eq (distinct k) limit.size cursor).2]
      at answered
  have walks : ∀ fuel, walk pages fuel 0 none =
      walk (keysetFetch position (CursorPosition.below byteOrder) limit.size
        fun k => newestFirst position (rows k)) fuel 0 none := fun fuel =>
    walk_encoded encodeCursor (CursorPosition.Stamped platform) fetched
      (fun k row mem => stamped k row (mem_newestFirst.mp mem)) fuel 0 none (by simp)
  refine ⟨fun k => ⟨_, fetched k _ (stamped_cursorOf limit stamped k)⟩, ?_, ?_⟩
  · intro fuel n found walked
    rw [walks] at walked
    obtain ⟨descending, complete⟩ := keyset_walk order limit.positive sorted walked
    refine ⟨fun row mem => ?_, descending, fun p present => ?_⟩
    · obtain ⟨-, k, -, le, listed⟩ := (mem_keyset_walk order limit.positive walked).2 row mem
      exact ⟨k, le, mem_newestFirst.mp listed⟩
    · obtain ⟨row, mem, rfl⟩ := complete p rfl fun k _ le => by
        obtain ⟨row, listed, same⟩ := List.mem_map.mp (present k le)
        exact ⟨row, mem_newestFirst.mpr listed, same⟩
      have once : (found.map position).Nodup := by
        refine List.pairwise_map.mpr (descending.imp fun {a b} lower same => ?_)
        rw [same, order.irrefl] at lower
        cases lower
      exact List.count_eq_one_of_mem once (List.mem_map_of_mem mem)
  · intro m stops
    obtain ⟨fuel, n, found, walked⟩ := keyset_walk_ends position
      (fun k => newestFirst position (rows k)) order limit.positive fun k le p given => by
        -- The rows below the cursor were there before, and have distinct positions.
        refine (List.length_map position).symm.trans_le
          ((List.Nodup.subperm ?_ fun q mem => ?_).length_le.trans_eq (List.length_map position))
        · exact (((List.mergeSort_perm _ _).map position).nodup_iff.mpr (distinct (k + 1))).sublist
            (List.filter_sublist.map position)
        · obtain ⟨row, below, rfl⟩ := List.mem_map.mp mem
          obtain ⟨listed, lower⟩ := mem_rowsAfter.mp below
          obtain ⟨old, held, same⟩ := List.mem_map.mp
            (stops k le p given row (mem_newestFirst.mp listed) lower)
          refine List.mem_map.mpr ⟨old, mem_rowsAfter.mpr ⟨mem_newestFirst.mpr held, ?_⟩, same⟩
          rw [same]
          exact lower
    exact ⟨fuel, n, found, (walks fuel).trans walked⟩

theorem complete_of_rows :
    Complete position limit rows fun k => follow (paginate platform position (rows k)) limit := by
  refine complete_of_pages limit distinct stamped fun k cursor valid => ?_
  simp [follow, paginate, pageSize_number, position_encoded _ _ valid, Except.map]

end Walks

/-- For every filter and page size, and whatever is written between two requests. -/
theorem walks_complete (platform : Platform) (limit : PageLimit) :
    (∀ (table : RatingTable platform) (batches : Nat → List RatingInsert) (targetId : String),
      Complete ratingPosition limit
        (fun k => (atRequest RatingTable.insert table batches k).db.entries.filter fun entry =>
          entry.targetId = targetId)
        fun k => follow (findByTargetIdPaginated platform
          (atRequest RatingTable.insert table batches k).db targetId) limit) ∧
    ∀ (table : SubscriptionTable platform) (batches : Nat → List SubscriptionChange)
      (filter : SubscriptionFilter),
      Complete subscriptionPosition limit
        (fun k => (atRequest SubscriptionTable.apply table batches k).rows.filter filter.keeps)
        fun k => follow (findAllPaginated platform
          (atRequest SubscriptionTable.apply table batches k).rows filter) limit := by
  constructor
  · intro table batches targetId
    refine complete_of_rows limit (fun k => nodup_map_pos CursorPosition.id ?_) fun k entry mem => ?_
    · exact (atRequest RatingTable.insert table batches k).db.ids_differ.sublist
        (List.filter_sublist.map _)
    · exact (atRequest RatingTable.insert table batches k).stamped entry (List.mem_of_mem_filter mem)
  · intro table batches filter
    refine complete_of_rows limit (fun k => nodup_map_pos CursorPosition.id ?_) fun k row mem => ?_
    · exact (atRequest SubscriptionTable.apply table batches k).ids_differ.sublist
        (List.filter_sublist.map _)
    · exact (atRequest SubscriptionTable.apply table batches k).stamped row (List.mem_of_mem_filter mem)

end TalentTrust.PagedRows
