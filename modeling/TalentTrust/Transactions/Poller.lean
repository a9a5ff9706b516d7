import TalentTrust.Lib.Json
import TalentTrust.Lib.OrderedMap
import TalentTrust.Lib.Run

/-!
`services/TransactionPoller.ts` over the stores of `models/Transaction.ts`.

A poller gives way while it awaits the receipt, with the copy of the record that
it has read, and while it sleeps. A run is a list of polls begun, of recoveries,
of pollers that go on and of writes from outside that complete a transaction, in
any order.

A poller that comes back with a receipt, or without one, writes its copy of the
record back as a whole. It looks at the stored status only before it asks, so it
takes the outcome of a transaction back when another poller or a write from
outside has completed it meanwhile (`outcomes_kept_iff`). Runs are over the store in
memory, whose `set` always writes. That of the SQLite store throws on a record that it
cannot print, and a loop that meets one ends with the transaction pending
(`poll_bounded_and_terminal`).
-/

namespace TalentTrust.Transactions

open TalentTrust.Lib

/-! ### Records -/

inductive TransactionStatus where
  | pending
  | success
  | failed
  | timeout
  deriving DecidableEq, Repr

/-- What a provider may return: a JSON value, or an object that `JSON.stringify` throws on, with a
`bigint` or itself in it. Of that only the `status` is read. -/
inductive Receipt where
  | json (value : Json)
  | unprintable (status : Option Json)
  deriving DecidableEq

/-- Times are milliseconds of the clock. -/
structure Transaction where
  hash : String
  status : TransactionStatus
  receipt : Option Receipt
  lastCheckedAt : Option Int
  retryCount : Nat
  startedAt : Option Int
  deriving DecidableEq

/-- `InMemoryTransactionStore`. Records are values here, so reading one is a copy. -/
abbrev Store := OrderedMap String Transaction

/-- The limits of the constructor. Both are compared with whole numbers only, so a limit that
is not whole acts as the next one. -/
structure Config where
  maxRetries : Nat
  maxTotalDurationMs : Option Nat
  positive : ∀ limit ∈ maxTotalDurationMs, 0 < limit

def defaultConfig : Config := ⟨5, none, nofun⟩

/-! ### The poller -/

/-- What `getTransactionReceipt` comes to; `none` is `undefined`. -/
inductive Answer where
  | resolved (receipt : Option Receipt)
  | rejected
  deriving DecidableEq

/-- `Boolean(value)`. -/
def truthy : Receipt → Bool
  | .json .null => false
  | .json (.bool b) => b
  | .json (.num n) => n ≠ .ofNat 0
  | .json (.str s) => s ≠ ""
  | .json (.arr _) | .json (.obj _) | .unprintable _ => true

/-- The receipt of an answer, if there is one. -/
def Answer.receipt? : Answer → Option Receipt
  | .resolved receipt => receipt.filter truthy
  | .rejected => none

def Receipt.status : Receipt → Option Json
  | .json value => value.get? "status"
  | .unprintable status => status

/-- `receipt.status === 1 ? SUCCESS : FAILED`. -/
def statusOf (receipt : Receipt) : TransactionStatus :=
  if receipt.status = some (.num (.ofNat 1)) then .success else .failed

/-- Where a call of `pollWithBackoff` stands: it awaits the receipt, with its copy of the
record; it sleeps; it has returned; or `poll` has also taken note of that. -/
inductive Phase where
  | fetching (transaction : Transaction)
  | sleeping
  | returned
  | closed
  deriving DecidableEq

/-- The ceiling on the total duration is reached. -/
def Overdue (config : Config) (now : Int) (transaction : Transaction) : Prop :=
  ∃ limit ∈ config.maxTotalDurationMs, ∃ startedAt ∈ transaction.startedAt,
    (limit : Int) ≤ now - startedAt

instance (config : Config) (now : Int) (transaction : Transaction) :
    Decidable (Overdue config now transaction) :=
  inferInstanceAs (Decidable (∃ limit ∈ config.maxTotalDurationMs,
    ∃ startedAt ∈ transaction.startedAt, _))

def timedOut (now : Int) (transaction : Transaction) : Transaction :=
  { transaction with status := .timeout, lastCheckedAt := some now }

/-- `pollWithBackoff` up to its first `await`. -/
def pollWithBackoff (config : Config) (now : Int) (txHash : String) (store : Store) :
    Store × Phase :=
  match store.get? txHash with
  | none => (store, .returned)
  | some transaction =>
    if transaction.status ≠ .pending then (store, .returned)
    else if config.maxRetries ≤ transaction.retryCount then
      (store.set txHash (timedOut now transaction), .returned)
    else if Overdue config now transaction then
      (store.set txHash (timedOut now transaction), .returned)
    else (store, .fetching transaction)

/-- The record that a poller writes when the provider has answered. -/
def checked (now : Int) (answer : Answer) (transaction : Transaction) : Transaction :=
  match answer.receipt? with
  | some receipt =>
    { transaction with
      status := statusOf receipt, receipt := some receipt, lastCheckedAt := some now }
  | none =>
    { transaction with retryCount := transaction.retryCount + 1, lastCheckedAt := some now }

/-- `pollWithBackoff` from the answer of the provider to the sleep. -/
def onAnswer (now : Int) (answer : Answer) (txHash : String) (transaction : Transaction)
    (store : Store) : Store × Phase :=
  (store.set txHash (checked now answer transaction),
    if answer.receipt?.isSome then .returned else .sleeping)

/-! ### The machine -/

structure Poller where
  hash : String
  /-- `poll` has put it in `activePolls`; a recovery does not. -/
  registered : Bool
  phase : Phase
  deriving DecidableEq

structure State where
  store : Store
  activePolls : List String
  acceptingNewPolls : Bool
  pollers : List Poller
  deriving DecidableEq

def State.initial (store : Store) : State := ⟨store, [], true, []⟩

inductive Event where
  | poll (txHash : String) (now : Int)
  | recoverPendingTransactions (now : Int)
  /-- The poller at `index` goes on. `answer` is what the provider has come to, if it was
  asked. -/
  | resume (index : Nat) (now : Int) (answer : Answer)
  /-- Another part of the system stores a record with a terminal status. -/
  | complete (txHash : String) (transaction : Transaction)
  | stopAccepting
  deriving DecidableEq

/-- The record that `poll` makes sure of. -/
def begun (now : Int) (txHash : String) (store : Store) : Store :=
  match store.get? txHash with
  | none => store.set txHash ⟨txHash, .pending, none, none, 0, some now⟩
  | some transaction =>
    match transaction.startedAt with
    | none => store.set txHash { transaction with startedAt := some now }
    | some _ => store

def launch (config : Config) (now : Int) (registered : Bool) (txHash : String) (s : State) : State :=
  let next := pollWithBackoff config now txHash s.store
  { s with store := next.1, pollers := s.pollers ++ [⟨txHash, registered, next.2⟩] }

/-- `poll` up to the point where it awaits its poller. -/
def poll (config : Config) (now : Int) (txHash : String) (s : State) : State :=
  if s.acceptingNewPolls = false ∨ txHash ∈ s.activePolls then s
  else launch config now true txHash
    { s with store := begun now txHash s.store, activePolls := s.activePolls ++ [txHash] }

def pendingHashes (store : Store) : List String :=
  (store.entries.filter fun entry => entry.2.status = .pending).map fun entry => entry.2.hash

variable (config : Config)

def recoverPendingTransactions (now : Int) (s : State) : State :=
  (pendingHashes s.store).foldl (fun s txHash => launch config now false txHash s) s

/-- A poller goes on until it gives way again. -/
def Poller.proceed (now : Int) (answer : Answer) (poller : Poller)
    (store : Store) : Store × Phase :=
  match poller.phase with
  | .fetching transaction => onAnswer now answer poller.hash transaction store
  | .sleeping => pollWithBackoff config now poller.hash store
  | .returned | .closed => (store, .closed)

def resume (i : Nat) (now : Int) (answer : Answer) (s : State) : State :=
  match s.pollers[i]? with
  | none => s
  | some poller =>
    let next := poller.proceed config now answer s.store
    { s with
      store := next.1
      -- The `finally` of `poll`, once its poller has returned.
      activePolls :=
        if poller.registered ∧ poller.phase = .returned then s.activePolls.erase poller.hash
        else s.activePolls
      pollers := s.pollers.set i { poller with phase := next.2 } }

def step (s : State) : Event → State
  | .poll txHash now => poll config now txHash s
  | .recoverPendingTransactions now => recoverPendingTransactions config now s
  | .resume i now answer => resume config i now answer s
  | .complete txHash transaction =>
    if transaction.status = .pending then s
    else { s with store := s.store.set txHash transaction }
  | .stopAccepting => { s with acceptingNewPolls := false }

/-! ### Outcomes -/

/-- A record may take the place of another: a terminal status stays, and so does the fact
that there is a receipt. -/
def Transaction.Follows (later earlier : Transaction) : Prop :=
  earlier.status ≠ .pending →
    later.status = earlier.status ∧ (earlier.receipt.isSome → later.receipt.isSome)

/-- Every completed transaction is still there, with its status and a receipt if it had one. -/
def OutcomesKept (before after : Store) : Prop :=
  ∀ txHash, ∀ earlier ∈ before.get? txHash, earlier.status ≠ .pending →
    ∃ later ∈ after.get? txHash,
      later.status = earlier.status ∧ (earlier.receipt.isSome → later.receipt.isSome)

theorem OutcomesKept.refl (store : Store) : OutcomesKept store store :=
  fun _ earlier found _ => ⟨earlier, found, rfl, id⟩

theorem OutcomesKept.trans {a b c : Store} (first : OutcomesKept a b) (second : OutcomesKept b c) :
    OutcomesKept a c := by
  intro txHash earlier found terminal
  obtain ⟨middle, atMiddle, status, receipt⟩ := first txHash earlier found terminal
  obtain ⟨later, atLater, status', receipt'⟩ :=
    second txHash middle atMiddle (by rwa [status])
  exact ⟨later, atLater, status'.trans status, fun had => receipt' (receipt had)⟩

theorem outcomesKept_set_iff (store : Store) (txHash : String) (transaction : Transaction) :
    OutcomesKept store (store.set txHash transaction) ↔
      ∀ stored ∈ store.get? txHash, transaction.Follows stored := by
  constructor
  · intro kept stored found terminal
    obtain ⟨later, atLater, same⟩ := kept txHash stored found terminal
    rw [OrderedMap.get?_set, if_pos rfl] at atLater
    cases atLater
    exact same
  · intro follows other earlier found terminal
    by_cases here : other = txHash
    · subst here
      refine ⟨transaction, ?_, follows earlier found terminal⟩
      rw [OrderedMap.get?_set, if_pos rfl]
      rfl
    · refine ⟨earlier, ?_, rfl, id⟩
      rwa [OrderedMap.get?_set_of_ne store transaction here]

variable (config : Config) (now : Int) (txHash : String) (store : Store)

theorem outcomesKept_begun : OutcomesKept store (begun now txHash store) := by
  unfold begun
  split
  · rename_i missing
    rw [outcomesKept_set_iff]
    intro stored found
    rw [missing] at found
    cases found
  · rename_i transaction found
    split
    · rw [outcomesKept_set_iff]
      intro stored found' _
      cases Option.some.inj (found.symm.trans found')
      exact ⟨rfl, id⟩
    · exact .refl store

/-- Before it asks the provider, a poller writes over pending records only. -/
theorem outcomesKept_pollWithBackoff :
    OutcomesKept store (pollWithBackoff config now txHash store).1 := by
  unfold pollWithBackoff
  split
  · exact .refl store
  · rename_i transaction found
    split
    · exact .refl store
    · rename_i pending
      have overwrites : OutcomesKept store (store.set txHash (timedOut now transaction)) := by
        rw [outcomesKept_set_iff]
        intro stored found' terminal
        cases Option.some.inj (found.symm.trans found')
        exact absurd terminal pending
      split
      · exact overwrites
      · split
        · exact overwrites
        · exact .refl store

theorem outcomesKept_launch (registered : Bool) (txHash : String) (s : State) :
    OutcomesKept s.store (launch config now registered txHash s).store :=
  outcomesKept_pollWithBackoff config now txHash s.store

theorem outcomesKept_recover (s : State) :
    OutcomesKept s.store (recoverPendingTransactions config now s).store := by
  unfold recoverPendingTransactions
  induction pendingHashes s.store generalizing s with
  | nil => exact .refl s.store
  | cons txHash rest ih =>
    exact (outcomesKept_launch config now false txHash s).trans (ih _)

/-! ### Copies of pending records -/

/-- A poller that awaits a receipt holds a copy of a pending record. -/
def Poller.Pending (poller : Poller) : Prop :=
  ∀ transaction, poller.phase = .fetching transaction → transaction.status = .pending

def HoldsPending (s : State) : Prop := ∀ poller ∈ s.pollers, poller.Pending

variable {transaction : Transaction}

theorem pollWithBackoff_pending {config : Config} {now : Int} {txHash : String} {store : Store}
    (fetching : (pollWithBackoff config now txHash store).2 = .fetching transaction) :
    transaction.status = .pending := by
  unfold pollWithBackoff at fetching
  repeat' split at fetching
  all_goals cases fetching
  exact not_not.mp ‹¬ transaction.status ≠ .pending›

theorem HoldsPending.launch {s : State} (holds : HoldsPending s) (config : Config) (now : Int)
    (registered : Bool) (txHash : String) : HoldsPending (launch config now registered txHash s) := by
  exact forall_mem_concat holds fun _ fetching => pollWithBackoff_pending fetching

theorem proceed_pending (answer : Answer) (poller : Poller) (store : Store)
    (fetching : (poller.proceed config now answer store).2 = .fetching transaction) :
    transaction.status = .pending := by
  unfold Poller.proceed at fetching
  split at fetching
  · simp only [onAnswer] at fetching
    split at fetching <;> cases fetching
  · exact pollWithBackoff_pending fetching
  · cases fetching
  · cases fetching

theorem holdsPending_step (s : State) (e : Event) (holds : HoldsPending s) :
    HoldsPending (step config s e) := by
  cases e with
  | poll txHash now =>
    simp only [step, poll]
    split
    · exact holds
    · have still : HoldsPending { s with
          store := begun now txHash s.store, activePolls := s.activePolls ++ [txHash] } := holds
      exact still.launch config now true txHash
  | recoverPendingTransactions now =>
    simp only [step, recoverPendingTransactions]
    induction pendingHashes s.store generalizing s with
    | nil => exact holds
    | cons txHash rest ih => exact ih _ (holds.launch config now false txHash)
  | resume i now answer =>
    simp only [step, resume]
    split
    · exact holds
    · intro poller mem
      rcases List.mem_or_eq_of_mem_set mem with mem | rfl
      · exact holds poller mem
      · exact fun _ fetching => proceed_pending _ _ _ _ _ fetching
  | complete txHash transaction =>
    simp only [step]
    split <;> exact holds
  | stopAccepting => exact holds

/-! ### When outcomes stay -/

/-- A poller that comes back from the provider finds a record that is still pending, or it
brings a receipt that says what is stored. A write from outside meets a pending record, or
follows what is stored. -/
def MeetsPending (s : State) : Event → Prop
  | .resume i _ answer => ∀ poller ∈ s.pollers[i]?, ∀ transaction,
      poller.phase = .fetching transaction → ∀ stored ∈ s.store.get? poller.hash,
        stored.status ≠ .pending → answer.receipt?.map statusOf = some stored.status
  | .complete txHash transaction => transaction.status ≠ .pending →
      ∀ stored ∈ s.store.get? txHash, transaction.Follows stored
  | _ => True

theorem checked_follows_iff (answer : Answer) (pending : transaction.status = .pending)
    (stored : Transaction) :
    (checked now answer transaction).Follows stored ↔
      (stored.status ≠ .pending → answer.receipt?.map statusOf = some stored.status) := by
  unfold checked Transaction.Follows
  refine forall_congr' fun terminal => ?_
  cases answer.receipt? with
  | none => simpa [pending] using fun same => absurd same.symm terminal
  | some receipt => simp

theorem meetsPending_iff (s : State) (e : Event) (holds : HoldsPending s) :
    MeetsPending s e ↔ OutcomesKept s.store (step config s e).store := by
  cases e with
  | poll txHash now =>
    refine iff_of_true trivial ?_
    simp only [step, poll]
    split
    · exact .refl s.store
    · exact (outcomesKept_begun now txHash s.store).trans (outcomesKept_pollWithBackoff _ _ _ _)
  | recoverPendingTransactions now =>
    exact iff_of_true trivial (outcomesKept_recover config now s)
  | resume i now answer =>
    simp only [step, resume, MeetsPending]
    cases found : s.pollers[i]? with
    | none => exact iff_of_true (fun _ mem => by cases mem) (.refl s.store)
    | some poller =>
      have pending := holds poller (List.mem_of_getElem? found)
      simp only [Option.mem_def, Option.some.injEq, forall_eq', Poller.proceed]
      cases phase : poller.phase with
      | fetching transaction =>
        simp only [onAnswer, outcomesKept_set_iff, checked_follows_iff now answer (pending _ phase)]
        simp
      | sleeping =>
        exact iff_of_true (fun _ fetching => by cases fetching)
          (outcomesKept_pollWithBackoff _ _ _ _)
      | returned | closed => exact iff_of_true (fun _ fetching => by cases fetching) (.refl s.store)
  | complete txHash transaction =>
    simp only [step, MeetsPending]
    split
    · rename_i pending
      exact iff_of_true (fun terminal => absurd pending terminal) (.refl s.store)
    · rename_i terminal
      rw [outcomesKept_set_iff]
      exact ⟨fun cond => cond terminal, fun follows _ => follows⟩
  | stopAccepting => exact iff_of_true trivial (.refl s.store)

/-- From any stored transactions on, a completed transaction keeps its status, and a receipt
if it has one, for the rest of the run, iff every poller that comes back from the provider
and every write from outside finds its record pending or says what is stored. -/
theorem outcomes_kept_iff (config : Config) (store : Store) (events : List Event) :
    Along (step config) MeetsPending (.initial store) events ↔
      ∀ fs gs, fs <+: gs → gs <+: events →
        OutcomesKept (run (step config) (.initial store) fs).store
          (run (step config) (.initial store) gs).store :=
  along_iff_monotone_of_invariant (R := fun s s' => OutcomesKept s.store s'.store)
    (fun s => .refl s.store) OutcomesKept.trans (holdsPending_step config)
    (meetsPending_iff config) (fun _ mem => by cases mem) events

/-- A recovery starts a second poller for a transaction that is being polled, and both ask
the provider. The first stores a success with its receipt; the second is told that there is
no receipt yet and stores its copy, which is pending and has none. -/
theorem success_taken_back :
    let receipt : Receipt := .json (.obj [("status", .num (.ofNat 1))])
    let events : List Event :=
      [.poll "h" 0, .recoverPendingTransactions 0, .resume 0 1 (.resolved (some receipt)),
        .resume 1 2 (.resolved none)]
    ((run (step defaultConfig) (.initial .empty) (events.take 3)).store.get? "h").map
        (fun tx => (tx.status, tx.receipt)) = some (.success, some receipt) ∧
      ((run (step defaultConfig) (.initial .empty) events).store.get? "h").map
        (fun tx => (tx.status, tx.receipt)) = some (.pending, none) := by
  decide +kernel

/-! ### A loop that nothing disturbs -/

inductive Backend where
  | memory
  | sqlite
  deriving DecidableEq

/-- `JSON.stringify` does not throw. -/
def Receipt.prints : Receipt → Bool
  | .json _ => true
  | .unprintable _ => false

/-- The times that `toISOString` does not throw on. -/
def validTime (time : Int) : Bool := time.natAbs ≤ 8640000000000000

/-- `set` does not throw. -/
def Backend.takes (backend : Backend) (transaction : Transaction) : Bool :=
  match backend with
  | .memory => true
  | .sqlite => transaction.receipt.all Receipt.prints && transaction.lastCheckedAt.all validTime &&
      transaction.startedAt.all validTime

/-- A round of the loop: the answer of the provider, and the readings of the clock before and
after it. The last one is taken when the receipt could not be stored. -/
structure Round where
  enteredAt : Int
  answer : Answer
  answeredAt : Int
  retriedAt : Int

/-- `onAnswer` over a store whose `set` may throw. -/
def Backend.onAnswer (backend : Backend) (round : Round) (txHash : String) (transaction : Transaction)
    (store : Store) : Store × Phase :=
  let first := checked round.answeredAt round.answer transaction
  if backend.takes first then
    Transactions.onAnswer round.answeredAt round.answer txHash transaction store
  else if round.answer.receipt?.isSome then
    -- The error is caught, and the copy with the receipt is counted up and stored.
    let second :=
      { first with retryCount := first.retryCount + 1, lastCheckedAt := some round.retriedAt }
    if backend.takes second then (store.set txHash second, .sleeping) else (store, .returned)
  else (store, .returned)

/-- What stays of a write to a record when `set` may throw. -/
def Backend.commit (backend : Backend) (txHash : String) (before after : Store) : Store :=
  if (after.get? txHash).all backend.takes then after else before

/-- `pollWithBackoff` from round `k` on: what is stored when it returns or throws, and how often it
has asked. `none` is a loop that has not ended within the given number of rounds. -/
def pollAlone (backend : Backend) (config : Config) (txHash : String) (rounds : Nat → Round) :
    Nat → Nat → Store → Option (Store × Nat)
  | 0, _, _ => none
  | fuel + 1, k, store =>
    match pollWithBackoff config (rounds k).enteredAt txHash store with
    | (_, .fetching transaction) =>
      match backend.onAnswer (rounds k) txHash transaction store with
      | (store, .sleeping) =>
        (pollAlone backend config txHash rounds fuel (k + 1) store).map fun r => (r.1, r.2 + 1)
      | (store, _) => some (store, 1)
    | (after, _) => some (backend.commit txHash store after, 0)

/-- The store can print all that the loop may write. -/
structure Printable (rounds : Nat → Round) (transaction : Transaction) : Prop where
  record : transaction.receipt.all Receipt.prints = true ∧ transaction.startedAt.all validTime = true
  times : ∀ k, validTime (rounds k).enteredAt = true ∧ validTime (rounds k).answeredAt = true
  receipts : ∀ k, (rounds k).answer.receipt?.all Receipt.prints = true

/-- No `set` throws: the store is the one in memory, or it can print what it is given. -/
def Backend.Stores (backend : Backend) (rounds : Nat → Round) (transaction : Transaction) : Prop :=
  backend = .memory ∨ Printable rounds transaction

/-- Where a loop may end: the transaction has an outcome, and a timeout only for one of its
reasons. -/
def Ended (final : Transaction) : Prop :=
  final.status ≠ .pending ∧
    (final.status = .timeout → config.maxRetries ≤ final.retryCount ∨ Overdue config now final)

theorem statusOf_ne_pending (receipt : Receipt) : statusOf receipt ≠ .pending := by
  unfold statusOf
  split <;> nofun

section Alone

variable {backend : Backend} {rounds : Nat → Round} {tx : Transaction}

theorem Backend.Stores.timedOut (stores : backend.Stores rounds tx) (k : Nat) :
    backend.takes (timedOut (rounds k).enteredAt tx) = true := by
  cases backend with
  | memory => rfl
  | sqlite =>
    obtain ⟨⟨receipt, started⟩, times, -⟩ := stores.resolve_left (by decide)
    simp [Backend.takes, Transactions.timedOut, receipt, started, times k]

theorem Backend.Stores.checked (stores : backend.Stores rounds tx) (k : Nat) :
    backend.takes (checked (rounds k).answeredAt (rounds k).answer tx) = true := by
  cases backend with
  | memory => rfl
  | sqlite =>
    obtain ⟨⟨receipt, started⟩, times, receipts⟩ := stores.resolve_left (by decide)
    have answer := receipts k
    unfold Transactions.checked
    cases given : (rounds k).answer.receipt? with
    | none => simp [Backend.takes, receipt, started, times k]
    | some r =>
      rw [given] at answer
      simp [Backend.takes, started, times k, show r.prints = true from answer]

variable {config : Config} {txHash : String} {store : Store} {k : Nat}

variable (txHash store) in
/-- When the answer cannot be stored, the loop ends, or the outcome is stored after all. -/
theorem onAnswer_of_refused {round : Round}
    (refused : ¬ backend.takes (checked round.answeredAt round.answer tx) = true) :
    backend.onAnswer round txHash tx store = (store, .returned) ∨ ∃ record, record.status ≠ .pending ∧
      backend.onAnswer round txHash tx store = (store.set txHash record, .sleeping) := by
  unfold Backend.onAnswer
  dsimp only
  rw [if_neg refused]
  cases receipt : round.answer.receipt? with
  | none => exact .inl rfl
  | some r =>
    rw [Option.isSome_some, if_pos rfl]
    split
    · refine .inr ⟨_, ?_, rfl⟩
      simp only [checked, receipt]
      exact statusOf_ne_pending r
    · exact .inl rfl

theorem pollAlone_settled (fuel : Nat) (found : store.get? txHash = some tx) (settled : tx.status ≠ .pending) :
    pollAlone backend config txHash rounds (fuel + 1) k store = some (store, 0) := by
  simp [pollAlone, pollWithBackoff, found, settled, Backend.commit]

theorem pollAlone_timedOut (fuel : Nat) (found : store.get? txHash = some tx)
    (pending : tx.status = .pending)
    (late : config.maxRetries ≤ tx.retryCount ∨ Overdue config (rounds k).enteredAt tx) :
    ∃ after, pollAlone backend config txHash rounds (fuel + 1) k store = some (after, 0) ∧
      (backend.Stores rounds tx → after.get? txHash = some (timedOut (rounds k).enteredAt tx)) := by
  refine ⟨backend.commit txHash store (store.set txHash (timedOut (rounds k).enteredAt tx)), ?_, ?_⟩
  · by_cases used : config.maxRetries ≤ tx.retryCount
    · simp [pollAlone, pollWithBackoff, found, pending, used]
    · simp [pollAlone, pollWithBackoff, found, pending, used, late.resolve_left used]
  · intro stores
    simp [Backend.commit, stores.timedOut k]

theorem pollAlone_refused (left : Nat)
    (asked : pollWithBackoff config (rounds k).enteredAt txHash store = (store, .fetching tx))
    (refused : ¬ backend.takes (checked (rounds k).answeredAt (rounds k).answer tx) = true) :
    ∃ after, pollAlone backend config txHash rounds (left + 2) k store = some (after, 1) := by
  rw [pollAlone, asked]
  dsimp only
  rcases onAnswer_of_refused txHash store refused with ended | ⟨record, settled, slept⟩
  · exact ⟨store, by rw [ended]⟩
  · refine ⟨store.set txHash record, ?_⟩
    rw [slept]
    dsimp only
    rw [pollAlone_settled left (OrderedMap.get?_set_self _ _ _) settled]
    rfl

theorem pollAlone_ends (left : Nat) :
    ∀ {k : Nat} {store : Store} {tx : Transaction}, store.get? txHash = some tx →
      tx.status = .pending → config.maxRetries - tx.retryCount = left →
      ∃ after queries, pollAlone backend config txHash rounds (left + 1) k store = some (after, queries) ∧
        queries ≤ left ∧ (backend.Stores rounds tx → ∃ final, after.get? txHash = some final ∧
          Ended config (rounds (k + queries)).enteredAt final) := by
  induction left with
  | zero =>
    intro k store tx found pending retries
    have used := Nat.sub_eq_zero_iff_le.mp retries
    obtain ⟨after, ends, kept⟩ := pollAlone_timedOut 0 found pending (.inl used)
    exact ⟨after, 0, ends, le_rfl, fun stores => ⟨_, kept stores, nofun, fun _ => .inl used⟩⟩
  | succ left ih =>
    intro k store tx found pending retries
    have more : ¬ config.maxRetries ≤ tx.retryCount := by omega
    by_cases overdue : Overdue config (rounds k).enteredAt tx
    · obtain ⟨after, ends, kept⟩ := pollAlone_timedOut (left + 1) found pending (.inr overdue)
      exact ⟨after, 0, ends, Nat.zero_le _, fun stores => ⟨_, kept stores, nofun, fun _ => .inr overdue⟩⟩
    · have asked : pollWithBackoff config (rounds k).enteredAt txHash store = (store, .fetching tx) := by
        simp [pollWithBackoff, found, pending, more, overdue]
      by_cases takes : backend.takes (checked (rounds k).answeredAt (rounds k).answer tx) = true
      · rw [pollAlone, asked]
        dsimp only
        have stored := OrderedMap.get?_set_self store txHash
          (checked (rounds k).answeredAt (rounds k).answer tx)
        cases receipt : (rounds k).answer.receipt? with
        | some receipt =>
          refine ⟨_, 1, by simp only [Backend.onAnswer, takes, if_true, onAnswer, receipt, Option.isSome_some], by omega,
            fun _ => ⟨_, stored, ?_⟩⟩
          simp only [checked, receipt, Ended, statusOf]
          split <;> exact ⟨nofun, nofun⟩
        | none =>
          simp only [checked, receipt] at stored takes
          obtain ⟨after, queries, ends, few, final⟩ :=
            ih (k := k + 1) stored pending (by dsimp only; omega)
          refine ⟨after, queries + 1, ?_, by omega, fun stores => ?_⟩
          · simp [Backend.onAnswer, takes, onAnswer, checked, receipt, ends]
          · rw [show k + (queries + 1) = k + 1 + queries by omega]
            exact final (stores.imp_right fun printable => ⟨printable.record, printable.times, printable.receipts⟩)
      · obtain ⟨after, ends⟩ := pollAlone_refused left asked takes
        exact ⟨after, 1, ends, by omega, fun stores => absurd (stores.checked k) takes⟩

end Alone

/-- However the provider answers and the clock runs, a loop on a pending transaction that nothing
disturbs asks at most as often as retries are left, and ends. If no `set` throws it leaves the
transaction with an outcome: a timeout only when the retries are used up or the time is over. -/
theorem poll_bounded_and_terminal (backend : Backend) (config : Config) (txHash : String)
    (rounds : Nat → Round) (store : Store) (tx : Transaction) (found : store.get? txHash = some tx)
    (pending : tx.status = .pending) :
    ∃ fuel after queries, pollAlone backend config txHash rounds fuel 0 store = some (after, queries) ∧
      queries ≤ config.maxRetries - tx.retryCount ∧
      (backend.Stores rounds tx → ∃ final, after.get? txHash = some final ∧
        Ended config (rounds queries).enteredAt final) := by
  obtain ⟨after, queries, ends⟩ := pollAlone_ends _ found pending rfl
  rw [Nat.zero_add] at ends
  exact ⟨_, after, queries, ends⟩

/-- A provider that never answers. -/
theorem poll_bounded_and_terminal_silent :
    ∃ fuel after queries,
      pollAlone .sqlite defaultConfig "h" (fun _ => ⟨0, .rejected, 0, 0⟩) fuel 0
          (OrderedMap.empty.set "h" ⟨"h", .pending, none, none, 3, none⟩) = some (after, queries) ∧
        queries ≤ 5 - 3 ∧ ∃ final, after.get? "h" = some final ∧ Ended defaultConfig 0 final := by
  obtain ⟨fuel, after, queries, ends, few, final⟩ := poll_bounded_and_terminal .sqlite defaultConfig "h"
    (fun _ => ⟨0, .rejected, 0, 0⟩) (OrderedMap.empty.set "h" ⟨"h", .pending, none, none, 3, none⟩)
    ⟨"h", .pending, none, none, 3, none⟩ rfl rfl
  exact ⟨fuel, after, queries, ends, few,
    final (.inr ⟨by decide, fun _ => by decide, fun _ => by decide⟩)⟩

/-- The provider returns a receipt with a `bigint`: neither `set` of the SQLite store can print it,
and the transaction stays pending. -/
theorem unprintable_receipt_stays_pending :
    let pending : Transaction := ⟨"h", .pending, none, none, 0, some 0⟩
    let answer : Answer := .resolved (some (.unprintable (some (.num (.ofNat 1)))))
    let store := OrderedMap.empty.set "h" pending
    pollAlone .sqlite defaultConfig "h" (fun _ => ⟨1, answer, 2, 3⟩) 1 0 store = some (store, 1) ∧
      store.get? "h" = some pending := by
  decide +kernel

end TalentTrust.Transactions
