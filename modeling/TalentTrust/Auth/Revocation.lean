import TalentTrust.Auth.Validation

/-!
Revoked and expired API keys are rejected, and when they are not.

Four things let a barred key through. A validation that was under way while the
key was revoked caches its record afterwards; a cached record is answered
without a look at its expiry; a record that was read from the file has a text
for its expiry, which never compares as passed; and the file, which overlapping
calls write in any order and read without waiting for each other, may bring
back a store from before a revocation. `Careful` excludes the four situations
by what the state shows before the step, and then no barred key is accepted
(`barred_keys_rejected`).
-/

namespace TalentTrust.Auth.ApiKeys

open TalentTrust.Lib

/-! ### Records that are known -/

/-- The record carries what was issued under its draw, for the user that its id
was created for. -/
structure Known (issued : List Issue) (r : ApiKey) : Prop where
  issue : issued[r.draw]? = some ⟨r.expiresAt.map Stamp.ms, r.createdBy⟩
  owner : issued[r.id]?.map Issue.createdBy = some r.createdBy

variable {issued : List Issue} {r : ApiKey} {issued' : List Issue}

theorem Known.mono (initial : issued <+: issued') (known : Known issued r) : Known issued' r := by
  refine ⟨getElem?_of_isPrefix initial known.issue, ?_⟩
  obtain ⟨issue, found, owner⟩ := Option.map_eq_some_iff.mp known.owner
  rw [getElem?_of_isPrefix initial found, Option.map_some, owner]

theorem Known.draw_lt (known : Known issued r) : r.draw < issued.length :=
  (List.getElem?_eq_some_iff.mp known.issue).1

theorem Known.toJson (known : Known issued r) : Known issued r.toJson := by
  refine ⟨?_, known.owner⟩
  have same : (r.expiresAt.map Stamp.toJson).map Stamp.ms = r.expiresAt.map Stamp.ms := by
    rw [Option.map_map]
    rfl
  exact known.issue.trans (by rw [ApiKey.toJson, same])

/-- A store of known records, no two of them with one key. -/
structure Sound (issued : List Issue) (store : Store) : Prop where
  known : ∀ r ∈ store, Known issued r
  differ : (store.map ApiKey.draw).Nodup

theorem Sound.nil (issued : List Issue) : Sound issued [] :=
  ⟨fun _ mem => absurd mem List.not_mem_nil, List.nodup_nil⟩

variable {store : Store}

theorem Sound.mono (initial : issued <+: issued')
    (sound : Sound issued store) : Sound issued' store :=
  ⟨fun r mem => (sound.known r mem).mono initial, sound.differ⟩

theorem Sound.toJson (sound : Sound issued store) : Sound issued (store.map ApiKey.toJson) := by
  refine ⟨fun r written => ?_, ?_⟩
  · obtain ⟨before, mem, rfl⟩ := List.mem_map.mp written
    exact (sound.known before mem).toJson
  · rw [List.map_map]
    exact sound.differ

/-- No active record has the key of the draw. -/
def Unused (store : Store) (draw : Nat) : Prop := ∀ r ∈ store, r.draw = draw → r.isActive = false

/-! ### Changes of one record -/

variable {id : Nat}

theorem replaceById_eq_some {change : ApiKey → ApiKey} : ∀ {store store' : Store},
    replaceById id change store = some store' → ∃ earlier r later, store = earlier ++ r :: later ∧
      getApiKeyById store id = some r ∧ store' = earlier ++ change r :: later
  | r :: store, store', replaced => by
      unfold replaceById at replaced
      by_cases here : r.id = id
      · rw [if_pos here] at replaced
        cases replaced
        exact ⟨[], r, store, rfl, by simp [getApiKeyById, here], rfl⟩
      · rw [if_neg here] at replaced
        obtain ⟨rest, further, rfl⟩ := Option.map_eq_some_iff.mp replaced
        obtain ⟨earlier, found, later, rfl, first, rfl⟩ := replaceById_eq_some further
        refine ⟨r :: earlier, found, later, rfl, ?_, rfl⟩
        unfold getApiKeyById at first ⊢
        rw [List.find?_cons_of_neg (by simpa using here), first]

/-- A changed record that keeps its key and what was issued under it, and that is
not active unless it was. -/
structure Keeps (r r' : ApiKey) : Prop where
  id : r'.id = r.id
  draw : r'.draw = r.draw
  createdBy : r'.createdBy = r.createdBy
  expiresAt : r'.expiresAt = r.expiresAt
  isActive : r'.isActive = true → r.isActive = true

section Edit

variable {issued : List Issue} {earlier later : Store} {r r' : ApiKey}

theorem Keeps.known (keeps : Keeps r r') (known : Known issued r) : Known issued r' := by
  refine ⟨?_, ?_⟩
  · rw [keeps.draw, keeps.expiresAt, keeps.createdBy, known.issue]
  · rw [keeps.id, keeps.createdBy, known.owner]

theorem forall_mem_middle {fine : ApiKey → Prop} : (∀ x ∈ earlier ++ r :: later, fine x) ↔
    (∀ x ∈ earlier, fine x) ∧ fine r ∧ ∀ x ∈ later, fine x := by
  rw [List.forall_mem_append, List.forall_mem_cons]

theorem Keeps.sound (keeps : Keeps r r') (sound : Sound issued (earlier ++ r :: later)) :
    Sound issued (earlier ++ r' :: later) := by
  refine ⟨?_, ?_⟩
  · obtain ⟨before, here, after⟩ := forall_mem_middle.mp sound.known
    exact forall_mem_middle.mpr ⟨before, keeps.known here, after⟩
  · have same : (earlier ++ r' :: later).map ApiKey.draw = (earlier ++ r :: later).map ApiKey.draw := by
      simp [keeps.draw]
    rw [same]
    exact sound.differ

theorem Keeps.active (keeps : Keeps r r') (fine : Nat → Prop)
    (active : ∀ x ∈ earlier ++ r :: later, x.isActive = true → fine x.draw) :
    ∀ x ∈ earlier ++ r' :: later, x.isActive = true → fine x.draw := by
  obtain ⟨before, here, after⟩ := forall_mem_middle.mp active
  refine forall_mem_middle.mpr ⟨before, fun alive => ?_, after⟩
  rw [keeps.draw]
  exact here (keeps.isActive alive)

theorem unused_iff {draw : Nat} :
    Unused store draw ↔ ∀ x ∈ store, x.isActive = true → x.draw ≠ draw := by
  refine ⟨fun unused x mem alive same => ?_, fun others x mem same => ?_⟩
  · rw [unused x mem same] at alive
    cases alive
  · by_contra alive
    exact others x mem (by simpa using alive) same

theorem Keeps.unused (keeps : Keeps r r') {draw : Nat} (unused : Unused (earlier ++ r :: later) draw) :
    Unused (earlier ++ r' :: later) draw :=
  unused_iff.mpr (keeps.active (· ≠ draw) (unused_iff.mp unused))

variable (sound : Sound issued (earlier ++ r :: later))

include sound

theorem Sound.others {x : ApiKey} (mem : x ∈ earlier ∨ x ∈ later) : x.draw ≠ r.draw := by
  have differ := sound.differ
  rw [List.map_append, List.map_cons, List.nodup_middle, List.nodup_cons, ← List.map_append] at differ
  intro same
  exact differ.1 (same ▸ List.mem_map_of_mem (List.mem_append.mpr mem))

/-- Once the record is inactive, or has another key, its key is unused. -/
theorem Sound.unused_replaced
    (changed : r'.draw = r.draw → r'.isActive = false) : Unused (earlier ++ r' :: later) r.draw := by
  refine forall_mem_middle.mpr ⟨fun x mem same => ?_, changed, fun x mem same => ?_⟩
  · exact absurd same (sound.others (.inl mem))
  · exact absurd same (sound.others (.inr mem))

end Edit

/-! ### The invariant -/

def State.current (s : State) : Store := s.db.elim [] s.storeAt

/-- The draw was taken out of use in the store, for a record of the user of `e`. -/
structure State.Retired (s : State) (e : ApiKey) (draw : Nat) : Prop where
  loaded : s.db ≠ none
  unused : Unused s.current draw
  owner : s.issued[draw]?.map Issue.createdBy = some e.createdBy

/-- What a validation knows of the record it has found. -/
structure State.Found (p : Platform) (s : State) (apiKey : String) (barred : Bool) (r : ApiKey) :
    Prop where
  known : Known s.issued r
  key : apiKey = generateApiKey p r.draw
  expired : barred = true → ∃ stamp ∈ r.expiresAt, stamp.ms < s.now

def Task.Ok (p : Platform) (s : State) : Task → Prop
  | .finding apiKey barred | .scanning apiKey barred => barred = true → s.Barred p apiKey
  | .backfilling apiKey barred r | .touching apiKey barred r | .expiring apiKey barred r =>
    s.Found p apiKey barred r
  | .rotating e draws => Known s.issued e ∧ ∀ pair ∈ draws, s.Retired e pair.1
  | .deactivating e draw => Known s.issued e ∧ ∀ old ∈ draw, s.Retired e old
  | .rotateReading _ | .deactivateReading _ | .creating _ _ _ => True

def Phase.Ok (s : State) : Phase → Prop
  | .loading => True
  | .ready d | .saving d => s.db = some d
  | .writing d snapshot => s.db = some d ∧ Sound s.issued snapshot

variable (p : Platform) (s : State)

def Call.Ok : Call → Prop
  | .running task phase => task.Ok p s ∧ phase.Ok s
  | .returned _ => True

/-- A cached answer is that of a key which is not revoked. -/
def State.Cached (selector : String) (info : ApiKeyInfo) : Prop :=
  ∃ draw, selector = computeKeySelector p (generateApiKey p draw) ∧ draw ∉ s.revoked ∧
    s.issued[draw]? = some ⟨info.expiresAt.map Stamp.ms, info.createdBy⟩

structure Inv : Prop where
  index : ∀ d, s.db = some d → d < s.stores.length
  store : Sound s.issued s.current
  active : ∀ r ∈ s.current, r.isActive = true → r.draw ∉ s.revoked
  file : Sound s.issued s.file
  issued : ∀ draw ∈ s.revoked, draw < s.issued.length
  cache : AuthCache.Only (s.Cached p) s.cache
  calls : ∀ c ∈ s.calls, c.Ok p s
  answers : ∀ a ∈ s.answers, a.barred = true → a.info = none

variable {p : Platform} {s t : State}

theorem inv_initial : Inv p initial where
  index := fun d loaded => by cases loaded
  store := Sound.nil _
  active := fun _ mem => absurd mem List.not_mem_nil
  file := Sound.nil _
  issued := fun _ mem => absurd mem List.not_mem_nil
  cache := AuthCache.only_empty
  calls := fun _ mem => absurd mem List.not_mem_nil
  answers := fun _ mem => absurd mem List.not_mem_nil

/-- What a call relies on stays true while the process runs. -/
structure Later (s t : State) : Prop where
  now : s.now ≤ t.now
  issued : s.issued <+: t.issued
  revoked : s.revoked ⊆ t.revoked
  db : ∀ d, s.db = some d → t.db = some d
  unused : s.db ≠ none → ∀ draw < s.issued.length, Unused s.current draw → Unused t.current draw

theorem Later.refl (s : State) : Later s s :=
  ⟨le_rfl, List.prefix_rfl, fun _ mem => mem, fun _ same => same, fun _ _ _ before => before⟩

variable {apiKey : String}

theorem Later.barred (later : Later s t) (barred : s.Barred p apiKey) : t.Barred p apiKey := by
  obtain ⟨draw, drawn, key, reason⟩ := barred
  refine ⟨draw, drawn.trans_le later.issued.length_le, key, ?_⟩
  rcases reason with revoked | ⟨issue, found, ms, expiry, passed⟩
  · exact .inl (later.revoked revoked)
  · exact .inr ⟨issue, getElem?_of_isPrefix later.issued found, ms, expiry, passed.trans_le later.now⟩

variable {e : ApiKey}

theorem Later.retired (later : Later s t) {draw : Nat} (retired : s.Retired e draw) :
    t.Retired e draw := by
  obtain ⟨issue, found, owner⟩ := Option.map_eq_some_iff.mp retired.owner
  refine ⟨?_, ?_, ?_⟩
  · obtain ⟨d, loaded⟩ := Option.ne_none_iff_exists'.mp retired.loaded
    rw [later.db d loaded]
    exact Option.some_ne_none d
  · exact later.unused retired.loaded draw (List.getElem?_eq_some_iff.mp found).1 retired.unused
  · rw [getElem?_of_isPrefix later.issued found, Option.map_some, owner]

variable {barred : Bool}

theorem Later.found (later : Later s t) (found : s.Found p apiKey barred r) :
    t.Found p apiKey barred r := by
  refine ⟨found.known.mono later.issued, found.key, fun flagged => ?_⟩
  obtain ⟨stamp, expiry, passed⟩ := found.expired flagged
  exact ⟨stamp, expiry, passed.trans_le later.now⟩

theorem Later.task (later : Later s t) {task : Task} (ok : task.Ok p s) : task.Ok p t := by
  cases task with
  | finding apiKey barred | scanning apiKey barred => exact fun flagged => later.barred (ok flagged)
  | backfilling apiKey barred r | touching apiKey barred r => exact later.found ok
  | expiring apiKey barred r => exact later.found ok
  | rotating e draws =>
    exact ⟨ok.1.mono later.issued, fun pair mem => later.retired (ok.2 pair mem)⟩
  | deactivating e draw =>
    exact ⟨ok.1.mono later.issued, fun old mem => later.retired (ok.2 old mem)⟩
  | rotateReading id | deactivateReading id => trivial
  | creating request indexed record => trivial

variable {c : Call}

theorem Later.call (later : Later s t) (ok : c.Ok p s) : c.Ok p t := by
  cases c with
  | returned result => trivial
  | running task phase =>
    refine ⟨later.task ok.1, ?_⟩
    cases phase with
    | loading => trivial
    | ready d | saving d => exact later.db d ok.2
    | writing d snapshot => exact ⟨later.db d ok.2.1, ok.2.2.mono later.issued⟩

/-! ### Steps that keep the invariant -/

/-- Nothing changed that calls rely on. -/
structure Alike (s t : State) : Prop where
  now : t.now = s.now
  issued : t.issued = s.issued
  revoked : t.revoked = s.revoked
  db : t.db = s.db
  stores : t.stores = s.stores

theorem Alike.current (alike : Alike s t) : t.current = s.current := by
  unfold State.current State.storeAt
  rw [alike.db, alike.stores]

theorem Alike.later (alike : Alike s t) : Later s t where
  now := alike.now.ge
  issued := by rw [alike.issued]
  revoked := by rw [alike.revoked]; exact fun _ mem => mem
  db := fun d loaded => alike.db.trans loaded
  unused := fun _ draw _ before => by rwa [alike.current]

theorem Inv.alike (inv : Inv p s) (alike : Alike s t) (file : Sound s.issued t.file)
    (cache : AuthCache.Only (s.Cached p) t.cache) (calls : ∀ c ∈ t.calls, c.Ok p s)
    (answers : ∀ a ∈ t.answers, a.barred = true → a.info = none) : Inv p t where
  index := by rw [alike.db, alike.stores]; exact inv.index
  store := by rw [alike.issued, alike.current]; exact inv.store
  active := by rw [alike.current, alike.revoked]; exact inv.active
  file := by rw [alike.issued]; exact file
  issued := by rw [alike.issued, alike.revoked]; exact inv.issued
  cache := by
    refine cache.imp fun selector info cached => ?_
    unfold State.Cached
    rw [alike.issued, alike.revoked]
    exact cached
  calls := fun c mem => alike.later.call (calls c mem)
  answers := answers

theorem Inv.setCall (inv : Inv p s) (i : Nat) (ok : c.Ok p s) : Inv p (s.setCall i c) :=
  inv.alike ⟨rfl, rfl, rfl, rfl, rfl⟩ inv.file inv.cache (forall_mem_set inv.calls ok i) inv.answers

theorem Inv.openCall (inv : Inv p s) (ok : c.Ok p s) : Inv p (s.openCall c) :=
  inv.alike ⟨rfl, rfl, rfl, rfl, rfl⟩ inv.file inv.cache (forall_mem_concat inv.calls ok) inv.answers

theorem ok_begin {task : Task} (ok : task.Ok p s) : (s.begin task).Ok p s := by
  refine ⟨ok, ?_⟩
  cases loaded : s.db with
  | none => trivial
  | some d => exact loaded

variable (inv : Inv p s)

include inv

theorem Inv.ok_answers {info : Option ApiKeyInfo} (rejected : barred = true → info = none) :
    ∀ a ∈ (⟨apiKey, barred, info⟩ : Answer) :: s.answers, a.barred = true → a.info = none :=
  List.forall_mem_cons.mpr ⟨rejected, inv.answers⟩

theorem Inv.answer (i : Nat) {info : Option ApiKeyInfo}
    (rejected : barred = true → info = none) : Inv p (s.answer i apiKey barred info) :=
  inv.alike ⟨rfl, rfl, rfl, rfl, rfl⟩ inv.file inv.cache
    (forall_mem_set inv.calls (by trivial) i) (inv.ok_answers rejected)

theorem Inv.withCache {cache : AuthCache} (only : AuthCache.Only (s.Cached p) cache) :
    Inv p { s with cache := cache } :=
  inv.alike ⟨rfl, rfl, rfl, rfl, rfl⟩ inv.file only inv.calls inv.answers

theorem Inv.change {d : Nat} (loaded : s.db = some d) (i : Nat) {task : Task}
    (grown : s.issued <+: issued) (sound : Sound issued store)
    (active : ∀ r ∈ store, r.isActive = true → r.draw ∉ s.revoked)
    (unused : ∀ draw < s.issued.length, Unused s.current draw → Unused store draw)
    (ok : task.Ok p { s with issued := issued, stores := s.stores.set d store }) :
    Inv p (({ s with issued := issued, stores := s.stores.set d store } : State).setCall i
      (.running task (.saving d))) := by
  have bound := inv.index d loaded
  have current : ({ s with issued := issued, stores := s.stores.set d store } : State).current =
      store := by
    simp [State.current, State.storeAt, loaded, bound]
  have later : Later s { s with issued := issued, stores := s.stores.set d store } :=
    { Later.refl s with
      issued := grown
      unused := fun _ draw drawn before => by
        rw [current]
        exact unused draw drawn before }
  refine Inv.setCall ?_ i ⟨ok, loaded⟩
  exact
    { inv with
      index := fun d' same => by
        rw [List.length_set]
        exact inv.index d' same
      store := by
        rw [current]
        exact sound
      active := by
        rw [current]
        exact active
      file := inv.file.mono grown
      issued := fun draw mem => (inv.issued draw mem).trans_le grown.length_le
      cache := inv.cache.imp fun _ _ cached => by
        obtain ⟨draw, selector, fresh, issue⟩ := cached
        exact ⟨draw, selector, fresh, getElem?_of_isPrefix grown issue⟩
      calls := fun c mem => later.call (inv.calls c mem) }

theorem Inv.edit {d : Nat} (loaded : s.db = some d) (i : Nat)
    {change : ApiKey → ApiKey} {task : Task}
    (replaced : replaceById id change (s.storeAt d) = some store) (keeps : ∀ r, Keeps r (change r))
    (ok : task.Ok p { s with stores := s.stores.set d store }) :
    Inv p (s.change i d store task) := by
  obtain ⟨earlier, r, later, split, -, rfl⟩ := replaceById_eq_some replaced
  have current : s.current = earlier ++ r :: later := by
    rw [State.current, loaded, Option.elim_some, split]
  have sound := inv.store
  have active := inv.active
  rw [current] at sound active
  refine inv.change loaded i List.prefix_rfl ((keeps r).sound sound)
    ((keeps r).active (· ∉ s.revoked) active) ?_ ok
  intro draw _ before
  rw [current] at before
  exact (keeps r).unused before

theorem Inv.revoke {draw : Nat} (retired : s.Retired e draw) : Inv p (s.revoke e draw) := by
  obtain ⟨issue, found, owner⟩ := Option.map_eq_some_iff.mp retired.owner
  have later : Later s (s.revoke e draw) :=
    { Later.refl s with revoked := fun _ mem => List.mem_cons_of_mem _ mem }
  have invalidated : AuthCache.Only (fun selector info => s.Cached p selector info ∧
      info.createdBy ≠ e.createdBy) (invalidateKey s.cache e) := by
    refine AuthCache.Only.invalidateByUserId ?_ e.createdBy
    split
    · exact inv.cache
    · exact inv.cache.erase _
  exact
    { inv with
      active := fun r mem alive revoked => by
        rcases List.mem_cons.mp revoked with same | revoked
        · rw [retired.unused r mem same] at alive
          cases alive
        · exact inv.active r mem alive revoked
      issued := fun n mem => by
        rcases List.mem_cons.mp mem with rfl | mem
        · exact (List.getElem?_eq_some_iff.mp found).1
        · exact inv.issued n mem
      cache := invalidated.imp fun selector info ⟨⟨n, chosen, fresh, issued⟩, other⟩ => by
        refine ⟨n, chosen, fun revoked => ?_, issued⟩
        rcases List.mem_cons.mp revoked with rfl | revoked
        · -- The entry is of the revoked key, so of its user, whose entries are gone.
          rw [issued] at found
          cases found
          exact other owner
        · exact fresh revoked
      calls := fun c mem => later.call (inv.calls c mem) }

/-! ### Validation -/

/-- A record that is still active, found for a barred key, has expired. -/
theorem Inv.expired_of_barred (mem : r ∈ s.current) (alive : r.isActive = true)
    (barred : s.Barred p (generateApiKey p r.draw)) : ∃ stamp ∈ r.expiresAt, stamp.ms < s.now := by
  obtain ⟨draw, -, key, reason⟩ := barred
  cases generateApiKey_injective key
  rcases reason with revoked | ⟨issue, found, ms, expiry, passed⟩
  · exact absurd revoked (inv.active r mem alive)
  · rw [(inv.store.known r mem).issue] at found
    cases found
    obtain ⟨stamp, chosen, rfl⟩ := Option.map_eq_some_iff.mp expiry
    exact ⟨stamp, chosen, passed⟩

theorem Inv.found (mem : r ∈ s.current) (alive : r.isActive = true)
    (accepted : accepts p apiKey (storedCredential p r.draw) = true)
    (flagged : barred = true → s.Barred p apiKey) : s.Found p apiKey barred r := by
  have key := eq_of_accepts accepted
  refine ⟨inv.store.known r mem, key, fun isBarred => ?_⟩
  exact inv.expired_of_barred mem alive (key ▸ flagged isBarred)

omit inv

variable (p s apiKey) in
/-- A cached record has not expired when it is used. -/
def CachedInTime : Prop :=
  ∀ info ∈ (AuthCache.get s.cache (computeKeySelector p apiKey) s.now).1,
    ∀ stamp ∈ info.expiresAt, s.now ≤ stamp.ms

theorem State.Cached.not_barred {info : ApiKeyInfo}
    (cached : s.Cached p (computeKeySelector p apiKey) info)
    (inTime : ∀ stamp ∈ info.expiresAt, s.now ≤ stamp.ms) : ¬ s.Barred p apiKey := by
  rintro ⟨draw, -, rfl, reason⟩
  obtain ⟨draw', chosen, fresh, issue⟩ := cached
  cases generateApiKey_injective (computeKeySelector_injective chosen)
  rcases reason with revoked | ⟨issue', found, ms, expiry, passed⟩
  · exact fresh revoked
  · rw [issue] at found
    cases found
    obtain ⟨stamp, held, rfl⟩ := Option.map_eq_some_iff.mp expiry
    exact absurd (inTime stamp held) (not_le.mpr passed)

theorem Inv.validateApiKey (inv : Inv p s) (inTime : CachedInTime p s apiKey) :
    Inv p (validateApiKey p s apiKey) := by
  have kept : Inv p { s with cache := (AuthCache.get s.cache (computeKeySelector p apiKey) s.now).2 } :=
    inv.withCache (inv.cache.get _ _)
  unfold ApiKeys.validateApiKey
  cases cached : (AuthCache.get s.cache (computeKeySelector p apiKey) s.now).1 with
  | none =>
    simp only [cached]
    refine kept.openCall (ok_begin fun flagged => ?_)
    exact of_decide_eq_true flagged
  | some info =>
    simp only [cached]
    refine inv.alike ⟨rfl, rfl, rfl, rfl, rfl⟩ inv.file kept.cache
      (forall_mem_concat inv.calls (by trivial))
      (inv.ok_answers fun flagged => absurd (of_decide_eq_true flagged) ?_)
    exact (inv.cache.of_get cached).not_barred (inTime info cached)

/-- A record that is not seen to be expired can be cached: its key was not revoked
in the meantime, and it has not expired. -/
def Cacheable (s : State) (r : ApiKey) : Prop :=
  isExpired r.expiresAt s.now = false → r.draw ∉ s.revoked ∧ ∀ stamp ∈ r.expiresAt, s.now ≤ stamp.ms

theorem Inv.checkExpiry (inv : Inv p s) (i : Nat)
    (found : s.Found p apiKey barred r) (cacheable : Cacheable s r) :
    Inv p (checkExpiry p s i apiKey barred r) := by
  unfold ApiKeys.checkExpiry
  split
  · exact inv.setCall i (ok_begin found)
  · rename_i open_
    obtain ⟨fresh, inTime⟩ := cacheable (by simpa using open_)
    refine Inv.answer (inv.withCache (inv.cache.set s.now ?_)) i fun flagged => ?_
    · exact ⟨r.draw, by rw [found.key], fresh, found.known.issue⟩
    · obtain ⟨stamp, held, passed⟩ := found.expired flagged
      exact absurd (inTime stamp held) (not_le.mpr passed)

/-! ### Turns -/

/-- The record that the call at `i` is about to check for expiry and to cache. -/
def answering (s : State) (i : Nat) : Option ApiKey :=
  match s.calls[i]? with
  | some (.running (.touching _ _ r) (.writing _ _)) => some r
  | some (.running (.touching _ _ r) (.ready d)) =>
    if (getApiKeyById (s.storeAt d) r.id).isNone then some r else none
  | _ => none

theorem getApiKeyById_eq_none_of_replaceById {change : ApiKey → ApiKey} :
    ∀ {store : Store}, replaceById id change store = none → getApiKeyById store id = none
  | [], _ => rfl
  | r :: store, missing => by
      unfold replaceById at missing
      by_cases here : r.id = id
      · rw [if_pos here] at missing
        cases missing
      · rw [if_neg here, Option.map_eq_none_iff] at missing
        have rest := getApiKeyById_eq_none_of_replaceById missing
        unfold getApiKeyById at rest ⊢
        rw [List.find?_cons_of_neg (by simpa using here), rest]

variable {d : Nat}

theorem Inv.insertFresh (inv : Inv p s) (loaded : s.db = some d) (i : Nat) {earlier later : Store}
    (record : ApiKey) {task : Task} (kept : (earlier ++ later).Sublist s.current)
    (draw : record.draw = s.issued.length)
    (owner : (s.issued ++ [⟨record.expiresAt.map Stamp.ms, record.createdBy⟩])[record.id]?.map
      Issue.createdBy = some record.createdBy)
    (ok : task.Ok p { s with
      issued := s.issued ++ [⟨record.expiresAt.map Stamp.ms, record.createdBy⟩]
      stores := s.stores.set d (earlier ++ record :: later) }) :
    Inv p ((s.issue ⟨record.expiresAt.map Stamp.ms, record.createdBy⟩).change i d
      (earlier ++ record :: later) task) := by
  have grown : s.issued <+: s.issued ++ [⟨record.expiresAt.map Stamp.ms, record.createdBy⟩] :=
    List.prefix_append _ _
  have older : ∀ x ∈ earlier ++ later, x.draw < s.issued.length := fun x mem =>
    (inv.store.known x (kept.subset mem)).draw_lt
  have split : ∀ x ∈ earlier ++ record :: later, x = record ∨ x ∈ earlier ++ later := fun x mem =>
    List.mem_cons.mp (List.perm_middle.mem_iff.mp mem)
  have known : Known (s.issued ++ [⟨record.expiresAt.map Stamp.ms, record.createdBy⟩]) record :=
    ⟨by rw [draw]; simp, owner⟩
  refine inv.change loaded i grown ⟨fun x mem => ?_, ?_⟩ (fun x mem alive => ?_)
    (fun n drawn before x mem same => ?_) ok
  · rcases split x mem with rfl | mem
    · exact known
    · exact (inv.store.known x (kept.subset mem)).mono grown
  · rw [List.map_append, List.map_cons, List.nodup_middle, List.nodup_cons, ← List.map_append]
    refine ⟨fun taken => ?_, inv.store.differ.sublist (kept.map _)⟩
    obtain ⟨x, mem, same⟩ := List.mem_map.mp taken
    exact (older x mem).ne (same.trans draw)
  · rcases split x mem with rfl | mem
    · rw [draw]
      exact fun revoked => absurd (inv.issued _ revoked) (lt_irrefl _)
    · exact inv.active x (kept.subset mem) alive
  · rcases split x mem with rfl | mem
    · exact absurd (draw.symm.trans same) drawn.ne'
    · exact before x (kept.subset mem) same

theorem getApiKeyById_id (found : getApiKeyById store id = some r) : r.id = id := by
  simpa using List.find?_some found

variable (inv : Inv p s)

include inv

variable (loaded : s.db = some d)

include loaded

/-- The draw that a call takes out of use is of the user whose record it has read. -/
theorem Inv.retired {r' : ApiKey}
    (known : Known s.issued e) {earlier later : Store} (grown : s.issued <+: issued)
    (split : s.storeAt d = earlier ++ r :: later) (sameId : r.id = e.id)
    (changed : r'.draw = r.draw → r'.isActive = false) :
    ({ s with issued := issued, stores := s.stores.set d (earlier ++ r' :: later) } : State).Retired e
      r.draw := by
  have sound := inv.store
  rw [State.current, loaded, Option.elim_some, split] at sound
  have here := sound.known r (List.mem_append_right _ List.mem_cons_self)
  have bound := inv.index d loaded
  have unused := sound.unused_replaced changed
  refine ⟨by simp [loaded], ?_, ?_⟩
  · simpa [State.current, State.storeAt, loaded, bound] using unused
  · have owner := here.owner
    rw [sameId, known.owner] at owner
    rw [getElem?_of_isPrefix grown here.issue, Option.map_some, Option.some.inj owner]

variable (i : Nat) (known : Known s.issued e) (found : getApiKeyById (s.storeAt d) e.id = some r)

include i known found

theorem Inv.rotate {selector : Option String} (replaced : replaceById e.id (fun r => { r with
        draw := s.issued.length
        keySelector := selector
        updatedAt := .date s.now }) (s.storeAt d) = some store) :
    Inv p ((s.issue ⟨r.expiresAt.map Stamp.ms, r.createdBy⟩).change i d store
      (.rotating e (some (r.draw, s.issued.length)))) := by
  obtain ⟨earlier, r', later, split, first, rfl⟩ := replaceById_eq_some replaced
  cases found.symm.trans first
  have current : s.current = earlier ++ r :: later := by
    rw [State.current, loaded, Option.elim_some, split]
  have here : r ∈ s.current := by
    rw [current]
    exact List.mem_append_right _ List.mem_cons_self
  have grown : s.issued <+: s.issued ++ [⟨r.expiresAt.map Stamp.ms, r.createdBy⟩] :=
    List.prefix_append _ _
  refine inv.insertFresh loaded i
    { r with draw := s.issued.length, keySelector := selector, updatedAt := .date s.now } ?_ rfl
    ((inv.store.known r here).mono grown).owner ⟨known.mono grown, ?_⟩
  · rw [current]
    exact (List.sublist_cons_self r later).append_left earlier
  · intro pair chosen
    cases chosen
    refine inv.retired loaded known grown split (getApiKeyById_id found) fun same => ?_
    exact absurd same (inv.store.known r here).draw_lt.ne'

theorem Inv.deactivate (replaced : replaceById e.id (fun r => { r with
        isActive := false
        updatedAt := .date s.now }) (s.storeAt d) = some store) :
    Inv p (s.change i d store (.deactivating e (some r.draw))) := by
  refine inv.edit loaded i replaced (fun r => ⟨rfl, rfl, rfl, rfl, fun alive => Bool.noConfusion alive⟩)
    ⟨known, ?_⟩
  intro old chosen
  cases chosen
  obtain ⟨earlier, r', later, split, first, rfl⟩ := replaceById_eq_some replaced
  cases found.symm.trans first
  exact inv.retired loaded known List.prefix_rfl split (getApiKeyById_id found) fun _ => rfl

omit i known found

theorem Inv.create (i : Nat) (request : ApiKeyRequest)
    (indexed : Bool) : Inv p ((s.issue ⟨request.expiresAt, request.createdBy⟩).change i d
      (s.storeAt d ++ [newRecord p s request indexed])
      (.creating request indexed (some (newRecord p s request indexed)))) := by
  have current : s.current = s.storeAt d := by rw [State.current, loaded, Option.elim_some]
  have kept : (s.storeAt d ++ []).Sublist s.current := by rw [current, List.append_nil]
  have expiry : (newRecord p s request indexed).expiresAt.map Stamp.ms = request.expiresAt := by
    unfold newRecord
    cases request.expiresAt <;> rfl
  have joined := inv.insertFresh loaded i (newRecord p s request indexed) kept rfl
    (by simp [newRecord]) (show (Task.creating request indexed
      (some (newRecord p s request indexed))).Ok p _ from trivial)
  rw [expiry] at joined
  exact joined

theorem Inv.perform (i : Nat) {task : Task} (ok : task.Ok p s)
    (cacheable : ∀ apiKey barred r, task = .touching apiKey barred r →
      getApiKeyById (s.storeAt d) r.id = none → Cacheable s r) : Inv p (perform p s i d task) := by
  have current : s.current = s.storeAt d := by rw [State.current, loaded, Option.elim_some]
  cases task with
  | finding apiKey barred =>
    simp only [ApiKeys.perform]
    cases lookup : getApiKeyBySelector (s.storeAt d) (computeKeySelector p apiKey) with
    | none => exact inv.setCall i (ok_begin ok)
    | some r =>
      have mem : r ∈ s.current := by
        rw [current]
        exact List.mem_of_find?_eq_some lookup
      have alive : r.isActive = true := by
        have both := List.find?_some lookup
        rw [Bool.and_eq_true] at both
        exact both.2
      simp only
      split
      · rename_i accepted
        have found := inv.found mem alive accepted ok
        split
        · exact inv.setCall i (ok_begin found)
        · exact inv.setCall i (ok_begin found)
      · exact inv.answer i fun _ => rfl
  | scanning apiKey barred =>
    simp only [ApiKeys.perform]
    cases lookup : findLegacyKey p (s.storeAt d) apiKey with
    | none => exact inv.answer i fun _ => rfl
    | some r =>
      have legacy := List.mem_filter.mp (List.mem_of_find?_eq_some lookup)
      have mem : r ∈ s.current := by
        rw [current]
        exact legacy.1
      have alive : r.isActive = true := (Bool.and_eq_true _ _ ▸ legacy.2 :).2
      have accepted := List.find?_some lookup
      exact inv.setCall i (ok_begin (inv.found mem alive accepted ok))
  | backfilling apiKey barred r =>
    simp only [ApiKeys.perform]
    split
    · exact inv.setCall i (ok_begin ok)
    · rename_i store replaced
      refine inv.edit loaded i replaced (fun r => ⟨rfl, rfl, rfl, rfl, id⟩) ?_
      exact ⟨ok.known, ok.key, ok.expired⟩
  | touching apiKey barred r =>
    simp only [ApiKeys.perform]
    split
    · rename_i missing
      exact inv.checkExpiry i ok
        (cacheable apiKey barred r rfl (getApiKeyById_eq_none_of_replaceById missing))
    · rename_i store replaced
      refine inv.edit loaded i replaced (fun r => ⟨rfl, rfl, rfl, rfl, id⟩) ?_
      exact ⟨ok.known, ok.key, ok.expired⟩
  | expiring apiKey barred r =>
    simp only [ApiKeys.perform]
    split
    · exact inv.answer i fun _ => rfl
    · rename_i store replaced
      refine inv.edit loaded i replaced
        (fun r => ⟨rfl, rfl, rfl, rfl, fun alive => Bool.noConfusion alive⟩) ?_
      exact ⟨ok.known, ok.key, ok.expired⟩
  | rotateReading id | deactivateReading id =>
    simp only [ApiKeys.perform]
    cases found : getApiKeyById (s.storeAt d) id with
    | none => exact inv.setCall i trivial
    | some e =>
      have known := inv.store.known e (current ▸ List.mem_of_find?_eq_some found)
      exact inv.setCall i (ok_begin ⟨known, fun _ chosen => by cases chosen⟩)
  | rotating e draws =>
    simp only [ApiKeys.perform]
    split
    · rename_i r store found replaced
      exact inv.rotate loaded i ok.1 found replaced
    · exact inv.setCall i trivial
  | deactivating e draw =>
    simp only [ApiKeys.perform]
    split
    · rename_i r store found replaced
      exact inv.deactivate loaded i ok.1 found replaced
    · exact inv.setCall i trivial
  | creating request indexed record =>
    simp only [ApiKeys.perform]
    exact inv.create loaded i request indexed

omit loaded

/-! ### Runs -/

theorem Inv.finish (i : Nat) {task : Task} (ok : task.Ok p s)
    (cacheable : ∀ apiKey barred r, task = .touching apiKey barred r → Cacheable s r) :
    Inv p (finish p s i d task) := by
  cases task with
  | finding apiKey barred | scanning apiKey barred => exact inv
  | backfilling apiKey barred r => exact inv.setCall i (ok_begin ok)
  | touching apiKey barred r => exact inv.checkExpiry i ok (cacheable apiKey barred r rfl)
  | expiring apiKey barred r => exact inv.answer i fun _ => rfl
  | rotateReading id => exact inv
  | rotating e draws =>
    cases draws with
    | none => exact inv
    | some pair => exact (inv.revoke (ok.2 pair rfl)).setCall i trivial
  | deactivateReading id => exact inv
  | deactivating e draw =>
    cases draw with
    | none => exact inv
    | some old => exact (inv.revoke (ok.2 old rfl)).setCall i trivial
  | creating request indexed record =>
    cases record with
    | none => exact inv
    | some record =>
      have fewer := inv.cache.invalidateByUserId request.createdBy
      exact (inv.withCache (fewer.imp fun _ _ cached => cached.1)).setCall i trivial

omit inv

def isLoading (s : State) (i : Nat) : Bool :=
  match s.calls[i]? with
  | some (.running _ .loading) => true
  | _ => false

/-- A call that reads the file is the first to do so, and the file has no record
that is active although its key was revoked. -/
def LoadsOnce (s : State) (i : Nat) : Prop :=
  isLoading s i = true → s.db = none ∧ ∀ r ∈ s.file, r.isActive = true → r.draw ∉ s.revoked

theorem Inv.load (inv : Inv p s) (i : Nat) {task : Task} (ok : task.Ok p s) (first : s.db = none)
    (active : ∀ r ∈ s.file, r.isActive = true → r.draw ∉ s.revoked) :
    Inv p (({ s with stores := s.stores ++ [s.file], db := some s.stores.length } : State).setCall i
      (.running task (.ready s.stores.length))) := by
  have current : ({ s with stores := s.stores ++ [s.file], db := some s.stores.length } : State).current =
      s.file := by
    simp [State.current, State.storeAt]
  have later : Later s { s with stores := s.stores ++ [s.file], db := some s.stores.length } :=
    { Later.refl s with
      db := fun d loaded => by
        rw [first] at loaded
        cases loaded
      unused := fun loaded => absurd first loaded }
  refine Inv.setCall ?_ i ⟨later.task ok, rfl⟩
  exact
    { inv with
      index := fun d loaded => by
        cases loaded
        simp
      store := by
        rw [current]
        exact inv.file
      active := by
        rw [current]
        exact active
      calls := fun c mem => later.call (inv.calls c mem) }

theorem Inv.turn (inv : Inv p s) {i : Nat} (once : LoadsOnce s i)
    (cacheable : ∀ r ∈ answering s i, Cacheable s r) : Inv p (turn p s i) := by
  unfold ApiKeys.turn
  unfold LoadsOnce isLoading at once
  unfold answering at cacheable
  cases found : s.calls[i]? with
  | none => exact inv
  | some c =>
    have ok := inv.calls c (List.mem_of_getElem? found)
    rw [found] at once cacheable
    cases c with
    | returned result => exact inv
    | running task phase =>
      cases phase with
      | loading => exact inv.load i ok.1 (once rfl).1 (once rfl).2
      | ready d =>
        refine inv.perform ok.2 i ok.1 ?_
        rintro apiKey barred r rfl missing
        exact cacheable r (by simp [missing])
      | saving d =>
        exact inv.setCall i ⟨ok.1, ok.2, inv.store⟩
      | writing d snapshot =>
        have written : Inv p { s with file := snapshot.map ApiKey.toJson } :=
          inv.alike ⟨rfl, rfl, rfl, rfl, rfl⟩ ok.2.2.toJson inv.cache inv.calls inv.answers
        have alike : Alike s { s with file := snapshot.map ApiKey.toJson } :=
          ⟨rfl, rfl, rfl, rfl, rfl⟩
        refine written.finish i (alike.later.task ok.1) ?_
        rintro apiKey barred r rfl
        exact cacheable r rfl

variable (p s) in
/-- The step avoids the four situations in which a barred key gets through. -/
def Careful : Event → Prop
  | .validate apiKey => CachedInTime p s apiKey
  | .turn i => LoadsOnce s i ∧ ∀ r ∈ answering s i, Cacheable s r
  | _ => True

theorem Inv.step (inv : Inv p s) {e : Event} (careful : Careful p s e) : Inv p (step p s e) := by
  cases e with
  | tick ms =>
    have later : Later s { s with now := s.now + ms } :=
      { Later.refl s with now := by simp }
    exact { inv with calls := fun c mem => later.call (inv.calls c mem) }
  | create request | createLegacy request | rotate id | deactivate id =>
    exact inv.openCall (ok_begin trivial)
  | validate apiKey => exact inv.validateApiKey careful
  | turn i => exact inv.turn careful.1 careful.2
  | restart torn =>
    exact
      { inv with
        index := fun d loaded => by cases loaded
        store := Sound.nil _
        active := fun _ mem => absurd mem List.not_mem_nil
        file := by
          simp only [ApiKeys.step]
          split
          · exact Sound.nil _
          · exact inv.file
        cache := AuthCache.only_empty
        calls := fun _ mem => absurd mem List.not_mem_nil }

/-! ### Barred keys -/

instance (s : State) (apiKey : String) : Decidable (CachedInTime p s apiKey) :=
  inferInstanceAs (Decidable (∀ info ∈ (AuthCache.get s.cache (computeKeySelector p apiKey) s.now).1,
    ∀ stamp ∈ info.expiresAt, s.now ≤ stamp.ms))

instance (s : State) (r : ApiKey) : Decidable (Cacheable s r) :=
  inferInstanceAs (Decidable (_ → _ ∧ ∀ stamp ∈ r.expiresAt, _))

instance (s : State) (i : Nat) : Decidable (LoadsOnce s i) :=
  inferInstanceAs (Decidable (_ → _ ∧ ∀ r ∈ s.file, _))

instance : ∀ (s : State) (e : Event), Decidable (Careful p s e)
  | s, .validate apiKey => inferInstanceAs (Decidable (CachedInTime p s apiKey))
  | s, .turn i => inferInstanceAs (Decidable (LoadsOnce s i ∧ ∀ r ∈ answering s i, Cacheable s r))
  | _, .tick _ | _, .create _ | _, .createLegacy _ | _, .rotate _ | _, .deactivate _ | _, .restart _ =>
    isTrue trivial

/-- In every run of careful steps, at every point: no validation that started with
a revoked or expired key has accepted it, and every open validation returns
when it gets its turns. -/
theorem barred_keys_rejected (p : Platform) (events : List Event)
    (careful : Along (ApiKeys.step p) (Careful p) initial events) (before : List Event)
    (reached : before <+: events) :
    (∀ a ∈ (run (ApiKeys.step p) initial before).answers, a.barred = true → a.info = none) ∧
      ∀ i task phase apiKey barred,
        (run (ApiKeys.step p) initial before).calls[i]? = some (.running task phase) →
        task.validation = some (apiKey, barred) →
        Answered (run (ApiKeys.step p) (run (ApiKeys.step p) initial before)
          (List.replicate 20 (.turn i))) i apiKey barred := by
  have keeps : ∀ s e, Inv p s → Careful p s e → Inv p (ApiKeys.step p s e) := fun s e inv fine =>
    inv.step fine
  have inv := (careful.of_prefix reached).invariant keeps inv_initial
  have phases : ∀ (s : State) e, s.Phased → (ApiKeys.step p s e).Phased := fun s e phased =>
    phased.step e
  have start : initial.Phased := fun _ mem => absurd mem List.not_mem_nil
  refine ⟨inv.answers, fun i task phase apiKey barred found validation => ?_⟩
  exact answered_turns 20 (run_invariant phases start before) found validation (waits_lt task phase)

/-! ### Sample runs -/

/-- A hash function under which the stored text of `00` is well formed. -/
def sampleHash (apiKey : String) : List UInt8 :=
  if apiKey = "00" then List.replicate 64 1 else 0 :: utf8Bytes apiKey

theorem sampleHash_injective : Function.Injective sampleHash := by
  intro k l same
  unfold sampleHash at same
  by_cases first : k = "00" <;> by_cases second : l = "00"
  · rw [first, second]
  · rw [if_pos first, if_neg second] at same
    exact absurd (List.cons.inj same).1 (by decide)
  · rw [if_neg first, if_pos second] at same
    exact absurd (List.cons.inj same).1 (by decide)
  · rw [if_neg first, if_neg second] at same
    exact utf8Bytes_injective (List.cons.inj same).2

def sample : Platform where
  sha256 := utf8Bytes
  pbkdf2 := fun apiKey _ => sampleHash apiKey
  keyBytes := fun draw => List.replicate (draw + 1) 0
  saltBytes := fun _ => List.replicate 16 0
  cacheOptions := ⟨60000, 1000⟩
  sha256_injective := utf8Bytes_injective
  keyBytes_injective := fun m n same => by simpa using congrArg List.length same
  eq_of_pbkdf2 := fun same => sampleHash_injective same

def sampleKey : String := generateApiKey sample 0

def turns (n i : Nat) : List Event := List.replicate n (.turn i)

def created (expiresAt : Option Int) : List Event :=
  .create ⟨"ci", ["read"], "alice", expiresAt⟩ :: turns 4 0

def deactivatedRun : List Event :=
  [created (some 5000), [.validate sampleKey], turns 4 1, [.deactivate 0], turns 4 2,
    [.validate sampleKey], turns 2 3].flatten

theorem barred_keys_rejected_deactivated :
    ((run (ApiKeys.step sample) initial deactivatedRun).answers.map fun a => (a.barred, a.info.isSome)) =
        [(true, false), (false, true)] ∧
      ∀ a ∈ (run (ApiKeys.step sample) initial deactivatedRun).answers,
        a.barred = true → a.info = none :=
  ⟨by decide +kernel,
    (barred_keys_rejected sample deactivatedRun (by decide +kernel) deactivatedRun List.prefix_rfl).1⟩

/-- Some validation in the run has accepted a key that was barred when it started. -/
def acceptsBarred (events : List Event) : Bool :=
  (run (ApiKeys.step sample) initial events).answers.any fun a => a.barred && a.info.isSome

def lateCacheRun : List Event :=
  [created none, [.validate sampleKey], turns 3 1, [.deactivate 0], turns 4 2,
    [.turn 1, .validate sampleKey]].flatten

def cachedExpiryRun : List Event :=
  [created (some 5000), [.validate sampleKey], turns 4 1, [.tick 6000, .validate sampleKey]].flatten

def reloadedExpiryRun : List Event :=
  [created (some 5000), [.restart false, .tick 6000, .validate sampleKey], turns 5 0].flatten

/-- A write of an older store lands after that of the deactivation, and the process
restarts. -/
def oldWriteRun : List Event :=
  [created none, [.validate sampleKey], turns 3 1, [.deactivate 0], turns 4 2,
    [.turn 1, .restart false, .validate sampleKey], turns 5 0].flatten

/-- Two calls read the file, the second one after the deactivation of the first. -/
def secondLoadRun : List Event :=
  [created none, [.restart false, .deactivate 0, .validate "other"], turns 3 0, [.turn 1],
    turns 2 0, [.validate sampleKey], turns 4 2].flatten

/-- Each of the situations lets a barred key through. -/
theorem barred_keys_accepted :
    acceptsBarred lateCacheRun = true ∧ acceptsBarred cachedExpiryRun = true ∧
      acceptsBarred reloadedExpiryRun = true ∧ acceptsBarred oldWriteRun = true ∧
      acceptsBarred secondLoadRun = true := by
  refine ⟨?_, ?_, ?_, ?_, ?_⟩ <;> decide +kernel

end TalentTrust.Auth.ApiKeys
