import TalentTrust.Lib.JsonScan

/-!
The dead-letter table of the webhook service (`queue/webhook-dlq.ts`).

An event is a webhook id with a body. The table keys its rows by a digest of
the two, and the column is unique, so that an event has at most one row; the
row is pending until its `replayed_at` is set. `status` reads off where an event
stands, and each operation has one lemma that says which events it moves.
-/

namespace TalentTrust.Webhook

open TalentTrust.Lib

/-! ### Rows -/

/-- The digest function of the dedupe keys, and `DLQConfig`. -/
structure DLQConfig where
  sha256 : String → List UInt8
  maxCapacity : Nat
  maxReplayAttempts : Nat
  sha256_injective : Function.Injective sha256

structure Event where
  webhookId : String
  body : Json
  deriving DecidableEq

/-- A row of `webhook_dlq`. Random ids are numbered by draw, times are in
milliseconds. -/
structure WebhookDLQEntry where
  id : Nat
  webhookId : String
  url : String
  body : Json
  retryCount : Nat
  webhookSecret : Option String
  failedAt : Int
  lastError : String
  dedupeKey : String
  replayedAt : Option Int
  replayAttempts : Nat
  createdAt : Int
  updatedAt : Int
  deriving DecidableEq

def WebhookDLQEntry.event (e : WebhookDLQEntry) : Event := ⟨e.webhookId, e.body⟩

variable (config : DLQConfig)

def generateDedupeKey (webhookId : String) (payload : Json) : String :=
  sha256Hex config.sha256 (webhookId ++ ":" ++ Json.stringify payload)

def Event.key (E : Event) : String := generateDedupeKey config E.webhookId E.body

variable {config} in
/-- The key determines the event, also where the webhook id has colons. -/
theorem Event.key_injective {E F : Event} (same : E.key config = F.key config) : E = F := by
  obtain ⟨ids, bodies⟩ :=
    Json.colon_stringify_injective (sha256Hex_injective config.sha256_injective same)
  cases E
  cases F
  cases ids
  cases bodies
  rfl

/-- The table. `drawn` counts the ids drawn so far. The fields after it are the
constraints `PRIMARY KEY` and `UNIQUE`, and that a row carries its own key. -/
structure WebhookDLQStorage where
  rows : List WebhookDLQEntry
  drawn : Nat
  ids_drawn : ∀ e ∈ rows, e.id < drawn
  ids_differ : (rows.map WebhookDLQEntry.id).Nodup
  keys_differ : (rows.map WebhookDLQEntry.dedupeKey).Nodup
  keyed : ∀ e ∈ rows, e.dedupeKey = e.event.key config

namespace WebhookDLQStorage

def empty : WebhookDLQStorage config where
  rows := []
  drawn := 0
  ids_drawn := by simp
  ids_differ := List.nodup_nil
  keys_differ := List.nodup_nil
  keyed := by simp

variable {config} (s : WebhookDLQStorage config) {e : WebhookDLQEntry} {e' : WebhookDLQEntry}

theorem eq_of_id (mem : e ∈ s.rows) (mem' : e' ∈ s.rows) (same : e.id = e'.id) : e = e' :=
  List.inj_on_of_nodup_map s.ids_differ mem mem' same

theorem eq_of_event (mem : e ∈ s.rows) (mem' : e' ∈ s.rows) (same : e.event = e'.event) : e = e' := by
  refine List.inj_on_of_nodup_map s.keys_differ mem mem' ?_
  rw [s.keyed e mem, s.keyed e' mem', same]

/-! ### Operations -/

/-- The arguments of `addEntry`, with the time it reads. -/
structure NewEntry where
  webhookId : String
  url : String
  body : Json
  retryCount : Nat
  lastError : String
  webhookSecret : Option String
  now : Int
  deriving DecidableEq

def NewEntry.event (new : NewEntry) : Event := ⟨new.webhookId, new.body⟩

/-- The row that `addEntry` inserts; an empty secret is stored as `NULL`. -/
def NewEntry.row (config : DLQConfig) (new : NewEntry) (id : Nat) : WebhookDLQEntry where
  id := id
  webhookId := new.webhookId
  url := new.url
  body := new.body
  retryCount := new.retryCount
  webhookSecret := new.webhookSecret.filter (· ≠ "")
  failedAt := new.now
  lastError := new.lastError
  dedupeKey := generateDedupeKey config new.webhookId new.body
  replayedAt := none
  replayAttempts := 0
  createdAt := new.now
  updatedAt := new.now

/-- The `INSERT` of `addEntry`; `none` is `DUPLICATE_ENTRY`. -/
def insert (new : NewEntry) : Option (WebhookDLQStorage config) :=
  if fresh : new.event.key config ∈ s.rows.map WebhookDLQEntry.dedupeKey then
    none
  else
    some
      { rows := s.rows ++ [new.row config s.drawn]
        drawn := s.drawn + 1
        ids_drawn := by
          intro e mem
          rcases List.mem_append.mp mem with mem | mem
          · exact Nat.lt_succ_of_lt (s.ids_drawn e mem)
          · cases List.mem_singleton.mp mem
            exact Nat.lt_succ_self s.drawn
        ids_differ := by
          rw [List.map_append, List.nodup_append]
          refine ⟨s.ids_differ, List.nodup_singleton _, ?_⟩
          intro i mem j mem'
          obtain ⟨e, row, rfl⟩ := List.mem_map.mp mem
          cases List.mem_singleton.mp mem'
          exact (s.ids_drawn e row).ne
        keys_differ := by
          rw [List.map_append, List.nodup_append]
          refine ⟨s.keys_differ, List.nodup_singleton _, ?_⟩
          intro key mem key' mem'
          cases List.mem_singleton.mp mem'
          intro same
          rw [same] at mem
          exact fresh mem
        keyed := by
          intro e mem
          rcases List.mem_append.mp mem with mem | mem
          · exact s.keyed e mem
          · cases List.mem_singleton.mp mem
            rfl }

def deleteEntry (id : Nat) : WebhookDLQStorage config where
  rows := s.rows.filter fun e => e.id ≠ id
  drawn := s.drawn
  ids_drawn := fun e mem => s.ids_drawn e (List.mem_of_mem_filter mem)
  ids_differ := s.ids_differ.sublist (List.filter_sublist.map _)
  keys_differ := s.keys_differ.sublist (List.filter_sublist.map _)
  keyed := fun e mem => s.keyed e (List.mem_of_mem_filter mem)

/-- The columns that the updates set. -/
structure Columns where
  replayedAt : Option Int
  replayAttempts : Nat
  updatedAt : Int

def WebhookDLQEntry.write (columns : Columns) (e : WebhookDLQEntry) : WebhookDLQEntry :=
  { e with
    replayedAt := columns.replayedAt
    replayAttempts := columns.replayAttempts
    updatedAt := columns.updatedAt }

variable (s : WebhookDLQStorage config)

/-- `UPDATE webhook_dlq SET … WHERE id = ?`. -/
def update (id : Nat) (set : WebhookDLQEntry → Columns) : WebhookDLQStorage config :=
  let write := fun e : WebhookDLQEntry => if e.id = id then WebhookDLQEntry.write (set e) e else e
  have keeps : ∀ e, (write e).id = e.id ∧ (write e).dedupeKey = e.dedupeKey ∧
      (write e).event = e.event := by
    intro e
    simp only [write]
    split <;> exact ⟨rfl, rfl, rfl⟩
  { rows := s.rows.map write
    drawn := s.drawn
    ids_drawn := by
      intro e written
      obtain ⟨row, mem, rfl⟩ := List.mem_map.mp written
      rw [(keeps row).1]
      exact s.ids_drawn row mem
    ids_differ := by
      rw [List.map_map, show WebhookDLQEntry.id ∘ write = WebhookDLQEntry.id from
        funext fun e => (keeps e).1]
      exact s.ids_differ
    keys_differ := by
      rw [List.map_map, show WebhookDLQEntry.dedupeKey ∘ write = WebhookDLQEntry.dedupeKey from
        funext fun e => (keeps e).2.1]
      exact s.keys_differ
    keyed := by
      intro e written
      obtain ⟨row, mem, rfl⟩ := List.mem_map.mp written
      rw [(keeps row).2.1, (keeps row).2.2, s.keyed row mem] }

def getPendingCount : Nat :=
  (s.rows.filter fun e => e.replayedAt = none).length

/-- The row `evictOldest` selects: `ORDER BY failed_at ASC LIMIT 1` among the pending. -/
def oldestPending : Option WebhookDLQEntry :=
  ((s.rows.filter fun e => e.replayedAt = none).insertionSort fun a b => a.failedAt ≤ b.failedAt).head?

def evictOldest : WebhookDLQStorage config :=
  match s.oldestPending with
  | none => s
  | some e => s.deleteEntry e.id

def getEntry (id : Nat) : Option WebhookDLQEntry :=
  s.rows.find? fun e => e.id = id

structure WebhookDLQQuery where
  limit : Nat := 50
  offset : Nat := 0
  since : Option Int := none
  «until» : Option Int := none

variable (s : WebhookDLQStorage config)

/-- `ORDER BY failed_at DESC LIMIT ? OFFSET ?`, by walking the index on `failed_at`
backwards. -/
def listEntries (query : WebhookDLQQuery) : List WebhookDLQEntry :=
  let selected := s.rows.filter fun e =>
    query.since.all (· ≤ e.failedAt) && query.«until».all (e.failedAt ≤ ·)
  let sorted := (selected.insertionSort fun a b => a.failedAt ≤ b.failedAt).reverse
  (sorted.drop query.offset).take query.limit

def markReplayed (id : Nat) (now : Int) : WebhookDLQStorage config :=
  s.update id fun e => ⟨some now, e.replayAttempts, now⟩

/-- The id of a pending row for the webhook id and body, if there is one. -/
def checkDedupe (webhookId : String) (body : Json) : Option Nat :=
  (s.rows.find? fun e =>
    e.dedupeKey = generateDedupeKey config webhookId body && e.replayedAt.isNone).map WebhookDLQEntry.id

structure ReplayAttempts where
  success : Bool
  attempts : Nat
  maxExceeded : Bool
  deriving DecidableEq

def incrementReplayAttempts (id : Nat) (now : Int) : ReplayAttempts × WebhookDLQStorage config :=
  match s.getEntry id with
  | none => (⟨false, 0, false⟩, s)
  | some e =>
    if config.maxReplayAttempts ≤ e.replayAttempts + 1 then
      (⟨true, e.replayAttempts + 1, true⟩, s.deleteEntry id)
    else
      (⟨true, e.replayAttempts + 1, false⟩,
        s.update id fun row => ⟨row.replayedAt, e.replayAttempts + 1, now⟩)

theorem getEntry_eq_some_iff {id : Nat} : s.getEntry id = some e ↔ e ∈ s.rows ∧ e.id = id := by
  constructor
  · intro found
    exact ⟨List.mem_of_find?_eq_some found, by simpa using List.find?_some found⟩
  · rintro ⟨mem, rfl⟩
    cases found : s.getEntry e.id with
    | none => exact absurd (List.find?_eq_none.mp found e mem) (by simp)
    | some e' =>
      have row := List.mem_of_find?_eq_some found
      rw [s.eq_of_id row mem (by simpa using List.find?_some found)]

theorem checkDedupe_self (mem : e ∈ s.rows) (pending : e.replayedAt = none) :
    s.checkDedupe e.webhookId e.body = some e.id := by
  unfold checkDedupe
  cases found : s.rows.find? _ with
  | none =>
    have missed := List.find?_eq_none.mp found e mem
    rw [s.keyed e mem, pending] at missed
    exact absurd (show e.event.key config = generateDedupeKey config e.webhookId e.body from rfl)
      (by simpa using missed)
  | some e' =>
    have row := List.mem_of_find?_eq_some found
    have matched : e'.dedupeKey = e.event.key config := by
      have both := List.find?_some found
      rw [Bool.and_eq_true, decide_eq_true_eq] at both
      exact both.1
    have same : e' = e :=
      List.inj_on_of_nodup_map s.keys_differ row mem (matched.trans (s.keyed e mem).symm)
    rw [same, Option.map_some]

/-! ### Where an event stands -/

/-- The table has a row of the event, replayed or not as `replayed` says. -/
def Holds (E : Event) (replayed : Bool) : Prop :=
  ∃ e ∈ s.rows, e.event = E ∧ e.replayedAt.isSome = replayed

instance (s : WebhookDLQStorage config) (E : Event) (replayed : Bool) :
    Decidable (s.Holds E replayed) :=
  inferInstanceAs (Decidable (∃ e ∈ s.rows, _))

theorem Holds.unique {s : WebhookDLQStorage config} {E : Event} {a b : Bool} (ha : s.Holds E a)
    (hb : s.Holds E b) : a = b := by
  obtain ⟨e, mem, rfl, rfl⟩ := ha
  obtain ⟨e', mem', same, rfl⟩ := hb
  rw [s.eq_of_event mem mem' same.symm]

end WebhookDLQStorage

inductive Status where
  | absent
  | pending
  | replayed
  deriving DecidableEq, Repr

namespace WebhookDLQStorage

variable {config}

def status (s : WebhookDLQStorage config) (E : Event) : Status :=
  if s.Holds E false then .pending else if s.Holds E true then .replayed else .absent

variable {s : WebhookDLQStorage config} {E : Event}

theorem status_eq_pending_iff : s.status E = .pending ↔ s.Holds E false := by
  unfold status
  split
  · simpa
  · split <;> simpa

theorem status_eq_replayed_iff : s.status E = .replayed ↔ s.Holds E true := by
  unfold status
  split
  · rename_i pending
    simp only [reduceCtorEq, false_iff]
    exact fun replayed => Bool.noConfusion (pending.unique replayed)
  · split <;> simpa

theorem status_ne_absent_iff : s.status E ≠ .absent ↔ ∃ e ∈ s.rows, e.event = E := by
  unfold status
  constructor
  · intro present
    split at present
    · rename_i held
      obtain ⟨e, mem, event, -⟩ := held
      exact ⟨e, mem, event⟩
    · split at present
      · rename_i held
        obtain ⟨e, mem, event, -⟩ := held
        exact ⟨e, mem, event⟩
      · exact absurd rfl present
  · rintro ⟨e, mem, event⟩
    have held : s.Holds E e.replayedAt.isSome := ⟨e, mem, event, rfl⟩
    cases replayed : e.replayedAt.isSome with
    | false => rw [replayed] at held; simp [held]
    | true => rw [replayed] at held; split <;> simp

variable {t : WebhookDLQStorage config}

theorem status_congr (same : ∀ b, s.Holds E b ↔ t.Holds E b) : s.status E = t.status E := by
  unfold status
  simp [same]

variable {new : NewEntry}

theorem insert_eq_none_iff : s.insert new = none ↔ s.status new.event ≠ .absent := by
  rw [status_ne_absent_iff]
  unfold insert
  constructor
  · intro refused
    split at refused
    · rename_i taken
      obtain ⟨e, mem, key⟩ := List.mem_map.mp taken
      rw [s.keyed e mem] at key
      exact ⟨e, mem, Event.key_injective key⟩
    · cases refused
  · rintro ⟨e, mem, event⟩
    rw [dif_pos]
    exact List.mem_map.mpr ⟨e, mem, by rw [s.keyed e mem, event]⟩

theorem rows_of_insert (inserted : s.insert new = some t) :
    t.rows = s.rows ++ [new.row config s.drawn] := by
  unfold insert at inserted
  split at inserted
  · cases inserted
  · cases inserted
    rfl

theorem status_insert (inserted : s.insert new = some t) (E : Event) :
    t.status E = if E = new.event then .pending else s.status E := by
  have rows := rows_of_insert inserted
  split
  · rename_i same
    subst same
    refine status_eq_pending_iff.mpr ⟨new.row config s.drawn, ?_, rfl, rfl⟩
    rw [rows]
    exact List.mem_append_right _ (List.mem_singleton_self _)
  · rename_i other
    refine status_congr fun b => ?_
    unfold Holds
    rw [rows]
    simp only [List.mem_append, List.mem_singleton]
    constructor
    · rintro ⟨e, mem | rfl, event, replayed⟩
      · exact ⟨e, mem, event, replayed⟩
      · exact absurd event.symm other
    · rintro ⟨e, mem, event, replayed⟩
      exact ⟨e, .inl mem, event, replayed⟩

variable {e : WebhookDLQEntry}

variable (s) in
theorem status_deleteEntry (mem : e ∈ s.rows) (E : Event) :
    (s.deleteEntry e.id).status E = if E = e.event then .absent else s.status E := by
  split
  · rename_i same
    subst same
    by_contra present
    obtain ⟨e', kept, event⟩ := status_ne_absent_iff.mp present
    obtain ⟨mem', differs⟩ := List.mem_filter.mp kept
    exact of_decide_eq_true differs (congrArg _ (s.eq_of_event mem' mem event))
  · rename_i other
    refine status_congr fun b => ?_
    constructor
    · rintro ⟨e', kept, event, replayed⟩
      exact ⟨e', List.mem_of_mem_filter kept, event, replayed⟩
    · rintro ⟨e', mem', event, replayed⟩
      refine ⟨e', List.mem_filter.mpr ⟨mem', decide_eq_true fun same => other ?_⟩, event, replayed⟩
      rw [← event, s.eq_of_id mem' mem same]

theorem holds_update {id : Nat} {set : WebhookDLQEntry → Columns} {b : Bool} :
    (s.update id set).Holds E b ↔
      ∃ e ∈ s.rows, e.event = E ∧ (if e.id = id then (set e).replayedAt else e.replayedAt).isSome = b := by
  constructor
  · rintro ⟨e, written, event, replayed⟩
    obtain ⟨row, mem, rfl⟩ := List.mem_map.mp written
    refine ⟨row, mem, ?_, ?_⟩
    · split at event <;> exact event
    · split <;> simp_all [WebhookDLQEntry.write]
  · rintro ⟨e, mem, event, replayed⟩
    refine ⟨_, List.mem_map.mpr ⟨e, mem, rfl⟩, ?_, ?_⟩
    · split <;> exact event
    · split <;> simp_all [WebhookDLQEntry.write]

variable (s) in
theorem status_update_of_keeps (id : Nat)
    (set : WebhookDLQEntry → Columns) (keeps : ∀ e, (set e).replayedAt = e.replayedAt) (E : Event) :
    (s.update id set).status E = s.status E := by
  refine status_congr fun b => ?_
  rw [holds_update]
  simp only [keeps, ite_self]
  exact Iff.rfl

variable (s) in
theorem status_markReplayed (mem : e ∈ s.rows) (now : Int) (E : Event) :
    (s.markReplayed e.id now).status E = if E = e.event then .replayed else s.status E := by
  split
  · rename_i same
    subst same
    exact status_eq_replayed_iff.mpr (holds_update.mpr ⟨e, mem, rfl, by simp⟩)
  · rename_i other
    refine status_congr fun b => ?_
    unfold markReplayed
    rw [holds_update]
    constructor
    · rintro ⟨e', mem', event, replayed⟩
      rw [if_neg fun same => other (by rw [← event, s.eq_of_id mem' mem same])] at replayed
      exact ⟨e', mem', event, replayed⟩
    · rintro ⟨e', mem', event, replayed⟩
      refine ⟨e', mem', event, ?_⟩
      rw [if_neg fun same => other (by rw [← event, s.eq_of_id mem' mem same])]
      exact replayed

theorem mem_of_oldestPending (oldest : s.oldestPending = some e) : e ∈ s.rows ∧ e.replayedAt = none := by
  have mem := (List.mem_insertionSort _).mp (List.mem_of_mem_head? oldest)
  simpa using mem

end WebhookDLQStorage

end TalentTrust.Webhook
