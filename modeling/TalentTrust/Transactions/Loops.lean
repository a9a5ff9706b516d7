import TalentTrust.Transactions.Poller
import TalentTrust.Lib.Calls

/-!
Loops of a `TransactionPoller`: how many run for a transaction, how often they ask the
provider, and what `drain` waits for.

`poll` keeps its loop in `activePolls`, and starts none for a hash that is there.
`recoverPendingTransactions` starts loops that it puts nowhere. So a recovery and a poll,
or two recoveries, run two loops for one hash, each with a copy of the retry count, and
`drain` does not wait for a loop of a recovery (`second_loop_started`). While no loop is
started for a hash that has one, and `drain` is called when no recovered loop runs, there
is at most one loop for each hash, and its record carries the number of queries
(`one_loop_per_hash`).
-/

namespace TalentTrust.Transactions

open TalentTrust.Lib

/-! ### Loops -/

def Phase.running : Phase → Bool
  | .fetching _ | .sleeping => true
  | .returned | .closed => false

/-- The loop has asked the provider. -/
def Phase.asks : Phase → Bool
  | .fetching _ => true
  | .sleeping | .returned | .closed => false

theorem Phase.eq_or (phase : Phase) :
    (∃ tx, phase = .fetching tx) ∨ phase = .sleeping ∨ phase = .returned ∨ phase = .closed := by
  cases phase with
  | fetching tx => exact .inl ⟨tx, rfl⟩
  | sleeping => exact .inr (.inl rfl)
  | returned => exact .inr (.inr (.inl rfl))
  | closed => exact .inr (.inr (.inr rfl))

/-- A call of `drain`: the loops it waits for, how many loops were started before it, and
which of those were running when it resolved. -/
structure Drain where
  awaited : List Nat
  started : Nat
  resolved : Option (List Nat)
  deriving DecidableEq

/-- A poller with the hashes that it has asked the provider for, and the calls of `drain`. -/
structure Watched where
  state : State
  queries : List String
  drains : List Drain
  deriving DecidableEq

namespace Watched

def initial (store : Store) : Watched := ⟨.initial store, [], []⟩

variable (config : Config)

def launch (now : Int) (registered : Bool) (txHash : String) (w : Watched) : Watched :=
  { w with
    state := Transactions.launch config now registered txHash w.state
    queries := w.queries ++
      if (pollWithBackoff config now txHash w.state.store).2.asks then [txHash] else [] }

def poll (now : Int) (txHash : String) (w : Watched) : Watched :=
  if w.state.acceptingNewPolls = false ∨ txHash ∈ w.state.activePolls then w
  else launch config now true txHash
    { w with state := { w.state with
      store := begun now txHash w.state.store, activePolls := w.state.activePolls ++ [txHash] } }

def recoverPendingTransactions (now : Int) (w : Watched) : Watched :=
  (pendingHashes w.state.store).foldl (fun w txHash => launch config now false txHash w) w

def resume (i : Nat) (now : Int) (answer : Answer) (w : Watched) : Watched :=
  { w with
    state := Transactions.resume config i now answer w.state
    queries := w.queries ++
      match w.state.pollers[i]? with
      | none => []
      | some poller =>
        if (poller.proceed config now answer w.state.store).2.asks then [poller.hash] else [] }

/-- The positions of the loops whose promises `activePolls` holds. -/
def activeLoops (s : State) : List Nat :=
  (List.range s.pollers.length).filter fun i =>
    s.pollers[i]?.any fun poller =>
      poller.registered && poller.phase ≠ .closed && poller.hash ∈ s.activePolls

/-- The positions of the loops that run, among the first `started`. -/
def runningLoops (s : State) (started : Nat) : List Nat :=
  (List.range started).filter fun i => s.pollers[i]?.any fun poller => poller.phase.running

/-- `drain` up to its `await`; with nothing in `activePolls` it returns at once. -/
def drain (w : Watched) : Watched :=
  { w with drains := w.drains ++ [⟨activeLoops w.state, w.state.pollers.length,
      if w.state.activePolls = [] then some (runningLoops w.state w.state.pollers.length) else none⟩] }

/-- `Promise.allSettled` resolves when no awaited loop runs any more. -/
def settle (k : Nat) (w : Watched) : Watched :=
  match w.drains[k]? with
  | none => w
  | some d =>
    if d.resolved = none ∧ ∀ i ∈ d.awaited, i ∉ runningLoops w.state w.state.pollers.length then
      { w with drains := w.drains.set k { d with resolved := some (runningLoops w.state d.started) } }
    else w

end Watched

inductive LoopEvent where
  | poll (txHash : String) (now : Int)
  | recoverPendingTransactions (now : Int)
  | resume (index : Nat) (now : Int) (answer : Answer)
  | stopAccepting
  | drain
  /-- The call of `drain` at a position resolves, if its loops have settled. -/
  | settle (index : Nat)
  deriving DecidableEq

/-- What the event is to the poller itself. -/
def LoopEvent.event? : LoopEvent → Option Event
  | .poll txHash now => some (.poll txHash now)
  | .recoverPendingTransactions now => some (.recoverPendingTransactions now)
  | .resume i now answer => some (.resume i now answer)
  | .stopAccepting => some .stopAccepting
  | .drain | .settle _ => none

def loopStep (config : Config) (w : Watched) : LoopEvent → Watched
  | .poll txHash now => w.poll config now txHash
  | .recoverPendingTransactions now => w.recoverPendingTransactions config now
  | .resume i now answer => w.resume config i now answer
  | .stopAccepting => { w with state := { w.state with acceptingNewPolls := false } }
  | .drain => w.drain
  | .settle k => w.settle k

variable (config : Config)

theorem state_loopStep (w : Watched) (e : LoopEvent) :
    (loopStep config w e).state =
      match e.event? with
      | some event => step config w.state event
      | none => w.state := by
  cases e with
  | poll txHash now =>
    simp only [loopStep, Watched.poll, LoopEvent.event?, step, poll]
    split <;> rfl
  | recoverPendingTransactions now =>
    simp only [loopStep, Watched.recoverPendingTransactions, LoopEvent.event?, step,
      recoverPendingTransactions]
    induction pendingHashes w.state.store generalizing w with
    | nil => rfl
    | cons txHash rest ih => exact ih (w.launch config now false txHash)
  | resume i now answer | stopAccepting => rfl
  | drain => rfl
  | settle k =>
    simp only [loopStep, Watched.settle, LoopEvent.event?]
    split
    · rfl
    · split <;> rfl

/-! ### What is asked of a run -/

def Poller.Running (p : Poller) : Prop := p.phase.running = true

/-- At most one loop runs for each hash, the provider is asked at most `maxRetries` times for
each, and no loop that was started before a drain ran when it resolved. -/
structure OneLoop (w : Watched) : Prop where
  single : DistinctBy Poller.hash Poller.Running w.state.pollers
  within : ∀ txHash, w.queries.count txHash ≤ config.maxRetries
  drained : ∀ d ∈ w.drains, ∀ running ∈ d.resolved, running = []

/-- No loop is started for a hash that has one, and no loop of a recovery runs when `drain` is
called. -/
def Separate (w : Watched) : LoopEvent → Prop
  | .poll txHash _ =>
    w.state.acceptingNewPolls = true → txHash ∉ w.state.activePolls →
      ∀ p ∈ w.state.pollers, p.phase.running = true → p.hash ≠ txHash
  | .recoverPendingTransactions _ =>
    ∀ txHash ∈ pendingHashes w.state.store, ∀ p ∈ w.state.pollers, p.phase.running = true →
      p.hash ≠ txHash
  | .drain => ∀ p ∈ w.state.pollers, p.phase.running = true → p.registered = true
  | .resume _ _ _ | .stopAccepting | .settle _ => True

instance (w : Watched) : ∀ e, Decidable (Separate w e)
  | .poll _ _ => inferInstanceAs (Decidable (_ → _ → ∀ p ∈ w.state.pollers, _))
  | .recoverPendingTransactions _ =>
    inferInstanceAs (Decidable (∀ txHash ∈ pendingHashes w.state.store, ∀ p ∈ w.state.pollers, _))
  | .drain => inferInstanceAs (Decidable (∀ p ∈ w.state.pollers, _))
  | .resume _ _ _ | .stopAccepting | .settle _ => isTrue trivial

/-! ### One loop for each hash -/

/-- `poll` waits for the loop. -/
def Poller.Enrolled (p : Poller) : Prop := p.registered = true ∧ p.phase ≠ .closed

/-- Every record stands under its own hash. -/
def Keyed (store : Store) : Prop := ∀ txHash, ∀ tx ∈ store.get? txHash, tx.hash = txHash

/-- The stored count is the number of queries while the transaction is pending and nobody awaits an
answer for it. -/
structure Counted (store : Store) (pollers : List Poller) (queries : List String)
    (txHash : String) : Prop where
  awaiting : ∀ p ∈ pollers, p.hash = txHash → ∀ tx, p.phase = .fetching tx →
    store.get? txHash = some tx ∧ tx.retryCount < config.maxRetries ∧
      queries.count txHash ≤ tx.retryCount + 1
  idle : (∀ p ∈ pollers, p.hash = txHash → p.phase.asks = false) → ∀ tx ∈ store.get? txHash,
    tx.status = .pending → queries.count txHash ≤ tx.retryCount
  missing : store.get? txHash = none → queries.count txHash = 0
  within : queries.count txHash ≤ config.maxRetries

/-- What holds between the events of a run that keeps loops separate. -/
structure Watched.Sound (w : Watched) : Prop where
  keyed : Keyed w.state.store
  single : DistinctBy Poller.hash Poller.Running w.state.pollers
  enrolled : ∀ p ∈ w.state.pollers, p.Enrolled → p.hash ∈ w.state.activePolls
  once : DistinctBy Poller.hash Poller.Enrolled w.state.pollers
  counted : ∀ txHash, Counted config w.state.store w.state.pollers w.queries txHash
  drains : ∀ d ∈ w.drains, d.started ≤ w.state.pollers.length ∧
    (d.resolved = none → ∀ i < d.started, ∀ p, w.state.pollers[i]? = some p → p.Running →
      i ∈ d.awaited) ∧
    ∀ running ∈ d.resolved, running = []

section Backoff

variable {config : Config} {now : Int} {txHash : String} {store : Store}

variable (config now txHash store) in
/-- What a loop does before it awaits anything: it returns, and writes at most its own record and
only to end it, or it asks with a copy of the stored record. -/
theorem pollWithBackoff_cases :
    ((pollWithBackoff config now txHash store).2 = .returned ∧
      ((pollWithBackoff config now txHash store).1 = store ∨
        ∃ tx, store.get? txHash = some tx ∧
          (pollWithBackoff config now txHash store).1 = store.set txHash (timedOut now tx))) ∨
      ∃ tx, store.get? txHash = some tx ∧ tx.status = .pending ∧ tx.retryCount < config.maxRetries ∧
        pollWithBackoff config now txHash store = (store, .fetching tx) := by
  unfold pollWithBackoff
  split
  · exact .inl ⟨rfl, .inl rfl⟩
  · rename_i tx found
    split
    · exact .inl ⟨rfl, .inl rfl⟩
    · rename_i pending
      split
      · exact .inl ⟨rfl, .inr ⟨tx, found, rfl⟩⟩
      · rename_i retries
        split
        · exact .inl ⟨rfl, .inr ⟨tx, found, rfl⟩⟩
        · exact .inr ⟨tx, found, not_not.mp pending, Nat.lt_of_not_le retries, rfl⟩

theorem Keyed.set (keyed : Keyed store) {tx : Transaction} (named : tx.hash = txHash) :
    Keyed (store.set txHash tx) := by
  intro other found held
  rw [OrderedMap.get?_set] at held
  split at held
  · rename_i here
    cases held
    rw [named, here]
  · exact keyed other found held

theorem keyed_pollWithBackoff (keyed : Keyed store) :
    Keyed (pollWithBackoff config now txHash store).1 := by
  rcases pollWithBackoff_cases config now txHash store with
    ⟨_, same | ⟨tx, found, same⟩⟩ | ⟨tx, found, _, _, same⟩
  · rwa [same]
  · rw [same]
    exact keyed.set (keyed txHash tx found)
  · rwa [same]

theorem get?_pollWithBackoff_of_ne {other : String} (ne : other ≠ txHash) :
    (pollWithBackoff config now txHash store).1.get? other = store.get? other := by
  rcases pollWithBackoff_cases config now txHash store with
    ⟨_, same | ⟨tx, found, same⟩⟩ | ⟨tx, found, _, _, same⟩
  · rw [same]
  · rw [same, OrderedMap.get?_set_of_ne store _ ne]
  · rw [same]

variable {pollers pollers' : List Poller} {queries queries' : List String} {store' : Store}
  (counted : Counted config store pollers queries txHash)

include counted

/-- What happens to other hashes does not matter. -/
theorem Counted.elsewhere (same_store : store'.get? txHash = store.get? txHash)
    (same_queries : queries'.count txHash = queries.count txHash)
    (same_loops : ∀ p : Poller, p.hash = txHash → (p ∈ pollers' ↔ p ∈ pollers)) :
    Counted config store' pollers' queries' txHash where
  awaiting p mem named := by
    rw [same_store, same_queries]
    exact counted.awaiting p ((same_loops p named).mp mem) named
  idle none_asks := by
    rw [same_store, same_queries]
    exact counted.idle fun p mem named => none_asks p ((same_loops p named).mpr mem) named
  missing := by
    rw [same_store, same_queries]
    exact counted.missing
  within := by
    rw [same_queries]
    exact counted.within

theorem Counted.enter (free : ∀ p ∈ pollers, p.hash = txHash → p.phase.asks = false) {new : Poller}
    (phase : new.phase = (pollWithBackoff config now txHash store).2) (named : new.hash = txHash)
    (mem : new ∈ pollers') (rest : ∀ p ∈ pollers', p.hash = txHash → p = new ∨ p ∈ pollers) :
    Counted config (pollWithBackoff config now txHash store).1 pollers'
      (queries ++ if (pollWithBackoff config now txHash store).2.asks then [txHash] else []) txHash := by
  have unasked : ∀ p ∈ pollers, p.hash = txHash → ∀ tx, p.phase ≠ .fetching tx := by
    intro p old same tx fetching
    have silent := free p old same
    rw [fetching] at silent
    cases silent
  rcases pollWithBackoff_cases config now txHash store with
    ⟨returned, written⟩ | ⟨tx, found, pending, retries, asked⟩
  · rw [returned] at phase ⊢
    have silent : ∀ p ∈ pollers', p.hash = txHash → ∀ tx, p.phase ≠ .fetching tx := by
      intro p old same tx fetching
      rcases rest p old same with rfl | old
      · rw [phase] at fetching
        cases fetching
      · exact unasked p old same tx fetching
    have none_new : queries ++ (if Phase.returned.asks then [txHash] else []) = queries :=
      List.append_nil queries
    rw [none_new]
    refine ⟨fun p old same tx fetching => absurd fetching (silent p old same tx), ?_, ?_, counted.within⟩
    · intro _ tx found pending
      rcases written with same | ⟨old, stored, same⟩
      · rw [same] at found
        exact counted.idle free tx found pending
      · rw [same, OrderedMap.get?_set, if_pos rfl] at found
        cases found
        cases pending
    · intro missing
      rcases written with same | ⟨old, stored, same⟩
      · rw [same] at missing
        exact counted.missing missing
      · rw [same, OrderedMap.get?_set, if_pos rfl] at missing
        cases missing
  · rw [asked] at phase ⊢
    have more : (queries ++ if (Phase.fetching tx).asks then [txHash] else []).count txHash =
        queries.count txHash + 1 := by
      simp [Phase.asks]
    have bound : queries.count txHash ≤ tx.retryCount := counted.idle free tx found pending
    refine ⟨?_, ?_, ?_, ?_⟩
    · intro p among same tx' fetching
      rcases rest p among same with rfl | old
      · rw [phase] at fetching
        cases fetching
        rw [more]
        exact ⟨found, retries, Nat.succ_le_succ bound⟩
      · exact absurd fetching (unasked p old same tx')
    · intro none_asks
      have silent := none_asks new mem named
      rw [phase] at silent
      cases silent
    · intro missing
      rw [found] at missing
      cases missing
    · rw [more]
      omega

end Backoff

theorem Poller.running_of_asks {p : Poller} (asks : p.phase.asks = true) : p.Running := by
  unfold Poller.Running
  cases phase : p.phase <;> rw [phase] at asks <;> first | rfl | cases asks

theorem Poller.Running.ne_closed {p : Poller} (running : p.Running) : p.phase ≠ .closed := by
  intro closed
  rw [Poller.Running, closed] at running
  cases running

namespace Watched.Sound

variable {config : Config} {w : Watched} {now : Int} {txHash : String}
  (sound : w.Sound config) (free : ∀ p ∈ w.state.pollers, p.Running → p.hash ≠ txHash)

include sound free

theorem launch {registered : Bool}
    (enrol : registered = true → txHash ∈ w.state.activePolls ∧ ∀ p ∈ w.state.pollers, p.Enrolled →
      p.hash ≠ txHash) :
    (w.launch config now registered txHash).Sound config where
  keyed := keyed_pollWithBackoff sound.keyed
  single := sound.single.concat fun _ => free
  enrolled := forall_mem_concat sound.enrolled fun enrolled => (enrol enrolled.1).1
  once := sound.once.concat fun enrolled => (enrol enrolled.1).2
  counted other := by
    by_cases here : other = txHash
    · subst here
      refine (sound.counted other).enter ?_ rfl rfl (List.mem_append_right _ List.mem_cons_self) ?_
      · intro p mem named
        exact Bool.eq_false_iff.mpr fun asks => free p mem (p.running_of_asks asks) named
      · intro p mem _
        exact (List.mem_append.mp mem).symm.imp List.mem_singleton.mp id
    · refine (sound.counted other).elsewhere (get?_pollWithBackoff_of_ne here) ?_ ?_
      · rw [Watched.launch]
        split <;> simp [Ne.symm here]
      · intro p named
        refine ⟨fun mem => ?_, List.mem_append_left _⟩
        rcases List.mem_append.mp mem with old | new
        · exact old
        · cases List.mem_singleton.mp new
          exact absurd named.symm here
  drains d mem := by
    obtain ⟨started, awaited, resolved⟩ := sound.drains d mem
    refine ⟨started.trans (by simp [Watched.launch, Transactions.launch]), ?_, resolved⟩
    intro open_ i below p found running
    rcases getElem?_concat_eq_some found with old | ⟨rfl, _⟩
    · exact awaited open_ i below p old running
    · exact absurd below (Nat.not_lt.mpr started)

theorem begin :
    Watched.Sound config { w with state := { w.state with
      store := begun now txHash w.state.store, activePolls := w.state.activePolls ++ [txHash] } } where
  keyed := by
    change Keyed (begun now txHash w.state.store)
    unfold begun
    split
    · exact sound.keyed.set rfl
    · rename_i tx found
      split
      · exact sound.keyed.set (sound.keyed txHash tx found)
      · exact sound.keyed
  single := sound.single
  enrolled p mem enrolled := List.mem_append_left _ (sound.enrolled p mem enrolled)
  once := sound.once
  counted other := by
    change Counted config (begun now txHash w.state.store) w.state.pollers w.queries other
    have counted := sound.counted other
    by_cases here : other = txHash
    · subst here
      have idle : ∀ p ∈ w.state.pollers, p.hash = other → p.phase.asks = false := fun p mem named =>
        Bool.eq_false_iff.mpr fun asks => free p mem (p.running_of_asks asks) named
      refine ⟨?_, ?_, ?_, counted.within⟩
      · intro p mem named tx fetching
        have silent := idle p mem named
        rw [fetching] at silent
        cases silent
      · intro _ tx held pending
        unfold begun at held
        split at held
        · rename_i missing
          rw [counted.missing missing]
          exact Nat.zero_le _
        · rename_i stored found
          have bound := counted.idle idle stored found
          split at held
          · rw [OrderedMap.get?_set, if_pos rfl] at held
            cases held
            exact bound pending
          · cases Option.some.inj (found.symm.trans held)
            exact bound pending
      · intro missing
        unfold begun at missing
        split at missing
        · rw [OrderedMap.get?_set, if_pos rfl] at missing
          cases missing
        · rename_i stored found
          split at missing
          · rw [OrderedMap.get?_set, if_pos rfl] at missing
            cases missing
          · rw [found] at missing
            cases missing
    · refine counted.elsewhere ?_ rfl fun p _ => Iff.rfl
      unfold begun
      split
      · rw [OrderedMap.get?_set_of_ne _ _ here]
      · split
        · rw [OrderedMap.get?_set_of_ne _ _ here]
        · rfl
  drains := sound.drains

omit sound free

theorem poll (sound : w.Sound config) (separate : Separate w (.poll txHash now)) :
    (w.poll config now txHash).Sound config := by
  unfold Watched.poll
  split
  · exact sound
  · rename_i admitted
    obtain ⟨accepting, fresh⟩ := not_or.mp admitted
    have free : ∀ p ∈ w.state.pollers, p.Running → p.hash ≠ txHash :=
      separate (Bool.not_eq_false _ ▸ accepting) fresh
    refine (sound.begin free).launch free fun _ => ⟨List.mem_append_right _ List.mem_cons_self, ?_⟩
    intro p mem enrolled named
    exact fresh (named ▸ sound.enrolled p mem enrolled)

theorem nodup_pendingHashes {store : Store} (keyed : Keyed store) : (pendingHashes store).Nodup := by
  have keys : pendingHashes store =
      (store.entries.filter fun entry => entry.2.status = .pending).map Prod.fst := by
    refine List.map_congr_left fun entry mem => ?_
    exact keyed entry.1 entry.2 (OrderedMap.get?_eq_some_iff.mpr (List.mem_of_mem_filter mem))
  rw [keys]
  exact store.nodup.sublist (List.filter_sublist.map _)

theorem recoverPendingTransactions (sound : w.Sound config)
    (separate : Separate w (.recoverPendingTransactions now)) :
    (w.recoverPendingTransactions config now).Sound config := by
  have distinct := nodup_pendingHashes sound.keyed
  have free : ∀ txHash ∈ pendingHashes w.state.store, ∀ p ∈ w.state.pollers, p.Running →
      p.hash ≠ txHash := separate
  unfold Watched.recoverPendingTransactions
  clear separate
  generalize pendingHashes w.state.store = hashes at distinct free
  induction hashes generalizing w with
  | nil => exact sound
  | cons txHash rest ih =>
    obtain ⟨fresh, distinct⟩ := List.nodup_cons.mp distinct
    refine ih (sound.launch (free txHash List.mem_cons_self) nofun) distinct ?_
    intro other mem p among running
    rcases List.mem_append.mp among with old | new
    · exact free other (List.mem_cons_of_mem _ mem) p old running
    · cases List.mem_singleton.mp new
      intro (same : txHash = other)
      exact fresh (same ▸ mem)

variable {p : Poller} {i : Nat} (sound : w.Sound config)

include sound

variable (found : w.state.pollers[i]? = some p)

include found

/-- The loop at a position goes on: what its next phase and the store are to its hash is all that
has to be seen. -/
theorem change {phase : Phase}
    {store : Store} {activePolls queries : List String} (keyed : Keyed store)
    (runs : phase.running = true → p.Running) (closes : p.phase = .closed → phase = .closed)
    (enrolled : ∀ q ∈ w.state.pollers.set i { p with phase := phase }, q.Enrolled → q.hash ∈ activePolls)
    (counted : Counted config store (w.state.pollers.set i { p with phase := phase }) queries p.hash)
    (stores : ∀ other, other ≠ p.hash → store.get? other = w.state.store.get? other)
    (asked : ∀ other, other ≠ p.hash → queries.count other = w.queries.count other) :
    Watched.Sound config
      { w with
        state := { w.state with
          store := store
          activePolls := activePolls
          pollers := w.state.pollers.set i { p with phase := phase } }
        queries := queries } where
  keyed := keyed
  single := sound.single.set found rfl runs
  enrolled := enrolled
  once := sound.once.set found rfl fun enrolled => ⟨enrolled.1, fun closed => enrolled.2 (closes closed)⟩
  counted other := by
    by_cases here : other = p.hash
    · rw [here]
      exact counted
    · refine (sound.counted other).elsewhere (stores other here) (asked other here) ?_
      intro q named
      have other_loop : ∀ q : Poller, q.hash = other → q ∈ w.state.pollers →
          q ∈ w.state.pollers.set i { p with phase := phase } := by
        intro q named mem
        obtain ⟨j, at_j⟩ := List.mem_iff_getElem?.mp mem
        by_cases same : j = i
        · subst same
          cases Option.some.inj (found.symm.trans at_j)
          exact absurd named.symm here
        · exact List.mem_of_getElem? ((List.getElem?_set_ne (Ne.symm same)).trans at_j)
      refine ⟨fun mem => ?_, other_loop q named⟩
      rcases List.mem_or_eq_of_mem_set mem with old | rfl
      · exact old
      · exact absurd named.symm here
  drains d mem := by
    obtain ⟨started, awaited, resolved⟩ := sound.drains d mem
    refine ⟨by rwa [List.length_set], ?_, resolved⟩
    intro open_ j below q at_j running
    rcases getElem?_set_eq_some at_j with ⟨rfl, rfl⟩ | ⟨_, old⟩
    · exact awaited open_ j below p found (runs running)
    · exact awaited open_ j below q old running

theorem others_silent
    (running : p.Running) {j : Nat} {q : Poller} (found' : w.state.pollers[j]? = some q)
    (other : j ≠ i) (named : q.hash = p.hash) : ¬ q.Running :=
  fun running' => other (sound.single j i q p found' found running' running named)

theorem close {answer : Answer} (silent : p.phase.running = false)
    (next : p.proceed config now answer w.state.store = (w.state.store, .closed)) :
    (w.resume config i now answer).Sound config := by
  have unasked : p.phase.asks = false := by
    refine Bool.eq_false_iff.mpr fun asks => ?_
    rw [show p.phase.running = true from p.running_of_asks asks] at silent
    cases silent
  have others : ∀ q ∈ w.state.pollers.set i { p with phase := .closed },
      q.phase = .closed ∨ ∃ j, j ≠ i ∧ w.state.pollers[j]? = some q := by
    intro q among
    obtain ⟨j, at_j⟩ := List.mem_iff_getElem?.mp among
    rcases getElem?_set_eq_some at_j with ⟨_, rfl⟩ | ⟨other, old⟩
    · exact .inl rfl
    · exact .inr ⟨j, other, old⟩
  simp only [Watched.resume, Transactions.resume, found, next, Phase.asks, Bool.false_eq_true, if_false,
    List.append_nil]
  refine sound.change found sound.keyed (fun runs => absurd runs Bool.false_ne_true) (fun _ => rfl) ?_ ?_
    (fun _ _ => rfl) fun _ _ => rfl
  · intro q among enrolled
    rcases others q among with closed | ⟨j, other, old⟩
    · exact absurd closed enrolled.2
    · have listed := sound.enrolled q (List.mem_of_getElem? old) enrolled
      split
      · rename_i leaves
        refine (List.mem_erase_of_ne fun named => ?_).mpr listed
        refine other (sound.once j i q p old found enrolled ⟨leaves.1, ?_⟩ named)
        rw [leaves.2]
        simp
      · exact listed
  · have counted := sound.counted p.hash
    refine ⟨?_, ?_, counted.missing, counted.within⟩
    · intro q among named tx fetching
      rcases others q among with closed | ⟨j, _, old⟩
      · rw [closed] at fetching
        cases fetching
      · exact counted.awaiting q (List.mem_of_getElem? old) named tx fetching
    · intro none_asks
      refine counted.idle fun q among named => ?_
      obtain ⟨j, at_j⟩ := List.mem_iff_getElem?.mp among
      by_cases here : j = i
      · subst here
        cases Option.some.inj (found.symm.trans at_j)
        exact unasked
      · exact none_asks q (List.mem_of_getElem? ((List.getElem?_set_ne (Ne.symm here)).trans at_j)) named

theorem still_enrolled (unclosed : p.phase ≠ .closed) (phase : Phase) :
    ∀ q ∈ w.state.pollers.set i { p with phase := phase }, q.Enrolled → q.hash ∈ w.state.activePolls := by
  intro q among enrolled
  rcases List.mem_or_eq_of_mem_set among with old | rfl
  · exact sound.enrolled q old enrolled
  · exact sound.enrolled p (List.mem_of_getElem? found) ⟨enrolled.1, unclosed⟩

theorem answered {tx : Transaction} (phase : p.phase = .fetching tx) (now : Int) (answer : Answer) :
    (w.resume config i now answer).Sound config := by
  obtain ⟨stored, retries, bound⟩ := (sound.counted p.hash).awaiting p (List.mem_of_getElem? found) rfl tx phase
  have running : p.Running := by rw [Poller.Running, phase]; rfl
  have silent : (if answer.receipt?.isSome then Phase.returned else .sleeping).asks = false := by
    split <;> rfl
  simp only [Watched.resume, Transactions.resume, found, Poller.proceed, phase, onAnswer, silent,
    Bool.false_eq_true, if_false, List.append_nil, reduceCtorEq, and_false]
  refine sound.change found (sound.keyed.set ?_) (fun _ => running) ?_ (sound.still_enrolled found ?_ _) ?_ ?_ ?_
  · have named : tx.hash = p.hash := sound.keyed p.hash tx stored
    unfold checked
    split <;> exact named
  · rw [phase]
    simp
  · rw [phase]
    simp
  · have gone : ∀ q ∈ w.state.pollers.set i
        { p with phase := if answer.receipt?.isSome then Phase.returned else .sleeping },
        q.hash = p.hash → q.phase.asks = false := by
      intro q among named
      obtain ⟨j, at_j⟩ := List.mem_iff_getElem?.mp among
      rcases getElem?_set_eq_some at_j with ⟨_, rfl⟩ | ⟨other, old⟩
      · exact silent
      · exact Bool.eq_false_iff.mpr fun asks =>
          sound.others_silent found running old other named (q.running_of_asks asks)
    refine ⟨?_, ?_, ?_, (sound.counted p.hash).within⟩
    · intro q among named tx' fetching
      have quiet := gone q among named
      rw [fetching] at quiet
      cases quiet
    · intro _ held found_held pending
      rw [OrderedMap.get?_set, if_pos rfl] at found_held
      cases found_held
      unfold checked at pending ⊢
      split at pending
      · rename_i receipt _
        exact absurd pending (statusOf_ne_pending receipt)
      · exact bound
    · intro missing
      rw [OrderedMap.get?_set, if_pos rfl] at missing
      cases missing
  · intro other ne
    exact OrderedMap.get?_set_of_ne _ _ ne
  · intro other _
    rfl

theorem awakened (phase : p.phase = .sleeping) (now : Int) (answer : Answer) :
    (w.resume config i now answer).Sound config := by
  have running : p.Running := by rw [Poller.Running, phase]; rfl
  simp only [Watched.resume, Transactions.resume, found, Poller.proceed, phase, reduceCtorEq, and_false,
    if_false]
  refine sound.change found (keyed_pollWithBackoff sound.keyed) (fun _ => running) ?_
    (sound.still_enrolled found ?_ _) ?_ ?_ ?_
  · rw [phase]
    simp
  · rw [phase]
    simp
  · have among_them : { p with phase := (pollWithBackoff config now p.hash w.state.store).2 } ∈
        w.state.pollers.set i
          { p with phase := (pollWithBackoff config now p.hash w.state.store).2 } :=
      List.mem_of_getElem? (List.getElem?_set_self (List.getElem?_eq_some_iff.mp found).1)
    refine (sound.counted p.hash).enter ?_ ?_ ?_ among_them ?_
    · intro q among named
      obtain ⟨j, at_j⟩ := List.mem_iff_getElem?.mp among
      by_cases here : j = i
      · subst here
        cases Option.some.inj (found.symm.trans at_j)
        rw [phase]
        rfl
      · exact Bool.eq_false_iff.mpr fun asks =>
          sound.others_silent found running at_j here named (q.running_of_asks asks)
    · rfl
    · rfl
    · intro q among _
      exact (List.mem_or_eq_of_mem_set among).symm
  · intro other ne
    exact get?_pollWithBackoff_of_ne ne
  · intro other ne
    split <;> simp [Ne.symm ne]

omit found

theorem resume (i : Nat) (now : Int) (answer : Answer) :
    (w.resume config i now answer).Sound config := by
  cases found : w.state.pollers[i]? with
  | none =>
    simp only [Watched.resume, Transactions.resume, found, List.append_nil]
    exact sound
  | some p =>
    rcases p.phase.eq_or with ⟨tx, phase⟩ | phase | phase | phase
    · exact sound.answered found phase now answer
    · exact sound.awakened found phase now answer
    · exact sound.close found (by rw [phase]; rfl) (by simp [Poller.proceed, phase])
    · exact sound.close found (by rw [phase]; rfl) (by simp [Poller.proceed, phase])

theorem stopAccepting :
    Watched.Sound config { w with state := { w.state with acceptingNewPolls := false } } :=
  { sound with }

omit sound

theorem mem_runningLoops {s : State} {started : Nat} :
    i ∈ runningLoops s started ↔ i < started ∧ ∃ p, s.pollers[i]? = some p ∧ p.Running := by
  unfold runningLoops Poller.Running
  rw [List.mem_filter, List.mem_range]
  refine and_congr_right fun _ => ?_
  cases s.pollers[i]? <;> simp

theorem drain (sound : w.Sound config) (separate : Separate w .drain) : w.drain.Sound config where
  __ := sound
  drains d mem := by
    rcases List.mem_append.mp mem with old | new
    · exact sound.drains d old
    · cases List.mem_singleton.mp new
      have active : ∀ (i : Nat) (p : Poller), w.state.pollers[i]? = some p → p.Running →
          p.hash ∈ w.state.activePolls := by
        intro i p found running
        have among : p ∈ w.state.pollers := List.mem_of_getElem? found
        exact sound.enrolled p among ⟨separate p among running, running.ne_closed⟩
      refine ⟨le_rfl, ?_, ?_⟩
      · intro _ i below p found running
        have registered : p.registered = true := separate p (List.mem_of_getElem? found) running
        unfold activeLoops
        rw [List.mem_filter, List.mem_range]
        refine ⟨below, ?_⟩
        rw [show w.state.pollers[i]? = some p from found]
        simp [registered, running.ne_closed, active i p found running]
      · intro running resolved
        split at resolved
        · rename_i none_active
          cases resolved
          refine List.eq_nil_iff_forall_not_mem.mpr fun i among => ?_
          obtain ⟨_, p, found, running⟩ := mem_runningLoops.mp among
          have held := active i p found running
          rw [none_active] at held
          cases held
        · cases resolved

theorem settle (sound : w.Sound config) (k : Nat) : (w.settle k).Sound config := by
  unfold Watched.settle
  split
  · exact sound
  · rename_i d found
    split
    · rename_i ready
      obtain ⟨open_, ended⟩ := ready
      obtain ⟨started, awaited, _⟩ := sound.drains d (List.mem_of_getElem? found)
      refine ⟨sound.keyed, sound.single, sound.enrolled, sound.once, sound.counted, ?_⟩
      intro d' mem
      rcases List.mem_or_eq_of_mem_set mem with old | rfl
      · exact sound.drains d' old
      · refine ⟨started, nofun, ?_⟩
        rintro running ⟨⟩
        refine List.eq_nil_iff_forall_not_mem.mpr fun i among => ?_
        obtain ⟨below, p, at_i, running⟩ := mem_runningLoops.mp among
        exact ended i (awaited open_ i below p at_i running)
          (mem_runningLoops.mpr ⟨below.trans_le started, p, at_i, running⟩)
    · exact sound

end Watched.Sound

theorem sound_initial {store : Store} (keyed : Keyed store) :
    (Watched.initial store).Sound config where
  keyed := keyed
  single := distinctBy_nil _ _
  enrolled _ mem := by cases mem
  once := distinctBy_nil _ _
  counted txHash :=
    { awaiting := fun _ mem => by cases mem
      idle := fun _ _ _ _ => Nat.zero_le _
      missing := fun _ => rfl
      within := Nat.zero_le _ }
  drains _ mem := by cases mem

theorem sound_loopStep (w : Watched) (e : LoopEvent) (sound : w.Sound config)
    (separate : Separate w e) : (loopStep config w e).Sound config := by
  cases e with
  | poll txHash now => exact sound.poll separate
  | recoverPendingTransactions now => exact sound.recoverPendingTransactions separate
  | resume i now answer => exact sound.resume i now answer
  | stopAccepting => exact sound.stopAccepting
  | drain => exact sound.drain separate
  | settle k => exact sound.settle k

/-- However polls, recoveries and drains interleave: as long as no loop is started for a hash that
has one and no recovered loop runs when `drain` is called, in every state at most one loop runs for
each hash, each hash was asked for at most `maxRetries` times, and no loop started before a drain
ran when it resolved. -/
theorem one_loop_per_hash (config : Config) {store : Store} (keyed : Keyed store)
    {events : List LoopEvent}
    (separate : Along (loopStep config) Separate (.initial store) events) :
    ∀ initial, initial <+: events → OneLoop config (run (loopStep config) (.initial store) initial) := by
  intro initial part
  have sound := (separate.of_prefix part).invariant (sound_loopStep config) (sound_initial config keyed)
  exact ⟨sound.single, fun txHash => (sound.counted txHash).within, fun d mem => (sound.drains d mem).2.2⟩

/-! ### A recovery beside a poll -/

def oneRetry : Config := { defaultConfig with maxRetries := 1 }

/-- A transaction is polled, and a recovery starts a second loop for it; a drain waits for the
first one only, which is told the receipt. -/
def pollThenRecover : List LoopEvent :=
  [.poll "h" 0, .recoverPendingTransactions 0, .drain,
    .resume 0 1 (.resolved (some (.json (.obj [("status", .num (.ofNat 1))])))), .settle 0]

/-- Both loops ask, although one query is allowed, and the drain resolves while the second runs. -/
theorem second_loop_started :
    ¬ DistinctBy Poller.hash Poller.Running
        (run (loopStep oneRetry) (.initial .empty) (pollThenRecover.take 2)).state.pollers ∧
      (run (loopStep oneRetry) (.initial .empty) pollThenRecover).queries.count "h" = 2 ∧
      (run (loopStep oneRetry) (.initial .empty) pollThenRecover).drains.map Drain.resolved =
        [some [1]] := by
  refine ⟨fun distinct => ?_, by decide +kernel⟩
  have same := distinct 0 1 _ _ rfl rfl rfl rfl rfl
  cases same

/-- The recovery comes when the poll has ended. -/
def pollEndsThenRecover : List LoopEvent :=
  [.poll "h" 0, .drain, .resume 0 1 .rejected, .resume 0 2 .rejected, .settle 0, .resume 0 2 .rejected,
    .recoverPendingTransactions 3]

theorem one_loop_after_another :
    OneLoop oneRetry (run (loopStep oneRetry) (.initial .empty) pollEndsThenRecover) :=
  one_loop_per_hash oneRetry (fun _ _ found => by cases found) (by decide +kernel) _ List.prefix_rfl

end TalentTrust.Transactions
