import TalentTrust.Lib.InstanceStorage
import TalentTrust.Lib.Run

/-!
The Soroban contract `predictify-hybrid`: `contracts/predictify-hybrid/src/bets.rs`,
`storage.rs` and `errors.rs`.

`place_bets` marks a key of its caller as consumed in instance storage. While the
storage is live, the calls with one caller and one key see nothing of the others:
their outcomes are those of a single flag (`outcomes_eq_slot`), so a batch is
applied at most once per key (`placeBets_at_most_once`).

The lifetime of a key is that of the whole storage. A key is consumed for as long
as its time to live (`rejected_within_ttl`), but it is free again after that only
if no other key was consumed at a later ledger (`expires_iff_alone`).
-/

namespace TalentTrust.Predictify

open TalentTrust.Lib

/-! ### The contract -/

inductive Error where
  | idempotentBatchAlreadyApplied
  | emptyBatch
  deriving DecidableEq, Repr

structure Bet where
  marketId : UInt64
  amount : BitVec 128
  deriving DecidableEq

structure BytesN (n : Nat) where
  bytes : List UInt8
  size : bytes.length = n
  deriving DecidableEq

def BytesN.fill (n : Nat) (byte : UInt8) : BytesN n := ⟨List.replicate n byte, List.length_replicate⟩

def zeroKey : BytesN 32 := .fill 32 0

def idemKeyTtlLedgers : Nat := 17280

inductive DataKey (Address : Type) where
  | placeBetsIdem (caller : Address) (idempotencyKey : BytesN 32)
  deriving DecidableEq

variable (Address : Type)

/-- An event with the topics `("place_bets", caller)` and the number of bets. -/
structure PlaceBetsEvent where
  caller : Address
  bets : Nat
  deriving DecidableEq

structure Env [DecidableEq Address] where
  storage : InstanceStorage (DataKey Address) Bool
  events : List (PlaceBetsEvent Address)

/-- A call in the ledger in which it is made; `authorized` is what `require_auth` finds. -/
structure Call where
  ledger : Nat
  authorized : Bool
  caller : Address
  bets : List Bet
  idempotencyKey : BytesN 32

/-- A call that traps is rolled back by the host. -/
inductive Outcome where
  | ok
  | err (error : Error)
  | trapped
  deriving DecidableEq

variable {Address : Type} [DecidableEq Address]

namespace Call

def idemKey (call : Call Address) : DataKey Address :=
  .placeBetsIdem call.caller call.idempotencyKey

def event (call : Call Address) : PlaceBetsEvent Address := ⟨call.caller, call.bets.length⟩

end Call

def Env.publish (env : Env Address) (event : PlaceBetsEvent Address) : Env Address :=
  { env with events := env.events ++ [event] }

variable (env : Env Address) (call : Call Address)

def Env.consume : Env Address :=
  { env with storage := env.storage.consume call.ledger call.idemKey true idemKeyTtlLedgers }

def placeBets : Outcome × Env Address :=
  if call.authorized = false then (.trapped, env)
  else if call.bets = [] then (.err .emptyBatch, env)
  else if call.idempotencyKey ≠ zeroKey then
    if env.storage.has call.ledger call.idemKey = true then
      (.err .idempotentBatchAlreadyApplied, env)
    else (.ok, (env.consume call).publish call.event)
  else (.ok, env.publish call.event)

def apply : Env Address := (placeBets env call).2

/-- A batch with bets and a key of its own, from a caller who has signed. -/
structure Call.Keyed : Prop where
  authorized : call.authorized = true
  filled : call.bets ≠ []
  keyed : call.idempotencyKey ≠ zeroKey

instance (call : Call Address) : Decidable call.Keyed :=
  decidable_of_iff (_ ∧ _ ∧ _)
    ⟨fun h => ⟨h.1, h.2.1, h.2.2⟩, fun h => ⟨h.authorized, h.filled, h.keyed⟩⟩

theorem placeBets_keyed {call : Call Address} (keyed : call.Keyed) (env : Env Address) :
    placeBets env call =
      if env.storage.has call.ledger call.idemKey = true then
        (.err .idempotentBatchAlreadyApplied, env)
      else (.ok, (env.consume call).publish call.event) := by
  rw [placeBets, if_neg (Bool.eq_false_iff.not.mpr (not_not.mpr keyed.authorized)),
    if_neg keyed.filled, if_pos keyed.keyed]

/-- A call that is not keyed leaves the storage as it is, and its outcome does not read it. -/
theorem placeBets_not_keyed {call : Call Address} (plain : ¬ call.Keyed) (env env' : Env Address) :
    (placeBets env call).2.storage = env.storage ∧
      (placeBets env call).1 = (placeBets env' call).1 := by
  unfold placeBets
  split
  · exact ⟨rfl, rfl⟩
  · rename_i authorized
    split
    · exact ⟨rfl, rfl⟩
    · rename_i filled
      split
      · rename_i keyed
        exact absurd ⟨Bool.not_eq_false _ ▸ authorized, filled, keyed⟩ plain
      · exact ⟨rfl, rfl⟩

theorem placeBets_cases :
    ((placeBets env call).1 = .ok ∧ (apply env call).events = env.events ++ [call.event]) ∨
      ((placeBets env call).1 ≠ .ok ∧ apply env call = env) := by
  unfold apply placeBets
  split
  · exact .inr ⟨by simp, rfl⟩
  split
  · exact .inr ⟨by simp, rfl⟩
  split
  · split
    · exact .inr ⟨by simp, rfl⟩
    · exact .inl ⟨rfl, rfl⟩
  · exact .inl ⟨rfl, rfl⟩

/-! ### At most once per key -/

/-- The storage is live in the ledger of the call. -/
def Live : Prop := call.ledger ≤ env.storage.liveUntil

instance (env : Env Address) (call : Call Address) : Decidable (Live env call) :=
  inferInstanceAs (Decidable (_ ≤ _))

/-- The outcomes of the calls with one storage key, in a history of all calls. -/
def outcomesOf (key : DataKey Address) (env : Env Address) (calls : List (Call Address)) :
    List Outcome :=
  ((calls.zip (answers placeBets env calls)).filter fun served => served.1.idemKey = key).map Prod.snd

/-- A flag that says whether a key is consumed, under the calls with that key. -/
def slot (consumed : Bool) (call : Call Address) : Outcome × Bool :=
  if call.authorized = false then (.trapped, consumed)
  else if call.bets = [] then (.err .emptyBatch, consumed)
  else if call.idempotencyKey ≠ zeroKey then
    if consumed = true then (.err .idempotentBatchAlreadyApplied, consumed) else (.ok, true)
  else (.ok, consumed)

def Env.consumed (key : DataKey Address) : Bool := env.storage.entries.has key

section Slot

variable {env : Env Address} {call : Call Address} {key : DataKey Address} (live : Live env call)

include live

theorem has_of_live (key : DataKey Address) :
    env.storage.has call.ledger key = env.consumed key := by
  have visible : decide (call.ledger ≤ env.storage.liveUntil) = true := decide_eq_true live
  rw [InstanceStorage.has_eq, visible, Bool.true_and, Env.consumed]

theorem consumed_consume :
    (env.consume call).consumed key = (decide (key = call.idemKey) || env.consumed key) := by
  rw [← has_of_live live, Env.consume, Env.consumed, InstanceStorage.has_consume]

theorem placeBets_eq_slot :
    (placeBets env call).1 = (slot (env.consumed call.idemKey) call).1 ∧
      (apply env call).consumed call.idemKey = (slot (env.consumed call.idemKey) call).2 := by
  have read := has_of_live live call.idemKey
  unfold apply placeBets slot
  rw [read]
  split
  · exact ⟨rfl, rfl⟩
  split
  · exact ⟨rfl, rfl⟩
  split
  · split
    · exact ⟨rfl, rfl⟩
    · refine ⟨rfl, (consumed_consume live).trans ?_⟩
      rw [decide_eq_true rfl, Bool.true_or]
  · exact ⟨rfl, rfl⟩

theorem consumed_of_other (other : call.idemKey ≠ key) :
    (apply env call).consumed key = env.consumed key := by
  by_cases keyed : call.Keyed
  · rw [apply, placeBets_keyed keyed]
    split
    · rfl
    · refine (consumed_consume live).trans ?_
      rw [decide_eq_false other.symm, Bool.false_or]
  · rw [apply, Env.consumed, (placeBets_not_keyed keyed env env).1, Env.consumed]

omit live

variable {calls : List (Call Address)}

/-- While the storage is live, the calls with one key are answered by its flag alone. -/
theorem outcomes_eq_slot (live : Along apply Live env calls) :
    outcomesOf key env calls =
      answers slot (env.consumed key) (calls.filter fun call => call.idemKey = key) := by
  induction calls generalizing env with
  | nil => rfl
  | cons call calls ih =>
    have rest : outcomesOf key (apply env call) calls = _ := ih live.2
    unfold outcomesOf at rest ⊢
    rw [answers, List.zip_cons_cons]
    by_cases own : call.idemKey = key
    · subst own
      obtain ⟨outcome, after⟩ := placeBets_eq_slot live.1
      rw [List.filter_cons_of_pos (by simp), List.filter_cons_of_pos (by simp),
        answers, ← after, ← outcome]
      exact congrArg _ rest
    · rw [List.filter_cons_of_neg (by simpa using own), List.filter_cons_of_neg (by simpa using own),
        ← consumed_of_other live.1 own]
      exact rest

omit [DecidableEq Address] in
theorem slot_cases (keyed : call.idempotencyKey ≠ zeroKey) (consumed : Bool) :
    (consumed = false ∧ slot consumed call = (.ok, true)) ∨
      ((slot consumed call).1 ≠ .ok ∧ (slot consumed call).2 = consumed) := by
  unfold slot
  split
  · exact .inr ⟨by simp, rfl⟩
  split
  · exact .inr ⟨by simp, rfl⟩
  split
  · exact .inr ⟨by simp, rfl⟩
  · rename_i free
    exact .inl ⟨Bool.eq_false_iff.mpr free, rfl⟩

omit [DecidableEq Address] in
theorem count_ok_slot (keyed : ∀ call ∈ calls, call.idempotencyKey ≠ zeroKey) (consumed : Bool) :
    (answers slot consumed calls).count .ok ≤ if consumed = true then 0 else 1 := by
  induction calls generalizing consumed with
  | nil => simp [answers]
  | cons call calls ih =>
    obtain ⟨here, later⟩ := List.forall_mem_cons.mp keyed
    rw [answers]
    rcases slot_cases here consumed with ⟨rfl, passed⟩ | ⟨failed, kept⟩
    · rw [passed, List.count_cons_self]
      exact Nat.succ_le_succ (ih later true)
    · rw [List.count_cons_of_ne failed, kept]
      exact ih later consumed

end Slot

/-- While the storage is live, a caller's key lets one batch through; what the other calls are
does not matter; and a call that fails leaves storage and events as they are. -/
theorem placeBets_at_most_once (env : Env Address) (calls : List (Call Address))
    (live : Along apply Live env calls) :
    (∀ caller key, key ≠ zeroKey →
      (outcomesOf (.placeBetsIdem caller key) env calls).count .ok ≤ 1) ∧
    (∀ others, Along apply Live env others → ∀ key : DataKey Address,
      (calls.filter fun call => call.idemKey = key) = (others.filter fun call => call.idemKey = key) →
        outcomesOf key env calls = outcomesOf key env others) ∧
    ∀ fs call, fs ++ [call] <+: calls →
      ((placeBets (run apply env fs) call).1 = .ok ∧
        (run apply env (fs ++ [call])).events = (run apply env fs).events ++ [call.event]) ∨
      ((placeBets (run apply env fs) call).1 ≠ .ok ∧
        run apply env (fs ++ [call]) = run apply env fs) := by
  refine ⟨?_, ?_, ?_⟩
  · intro caller key keyed
    rw [outcomes_eq_slot live]
    have own : ∀ call ∈ calls.filter (fun call => call.idemKey = .placeBetsIdem caller key),
        call.idempotencyKey ≠ zeroKey := by
      intro call mem
      have same := of_decide_eq_true (List.mem_filter.mp mem).2
      rw [Call.idemKey, DataKey.placeBetsIdem.injEq] at same
      exact same.2 ▸ keyed
    refine (count_ok_slot own _).trans ?_
    split <;> simp
  · intro others live' key same
    rw [outcomes_eq_slot live, outcomes_eq_slot live', same]
  · intro fs call _
    rw [run_append]
    exact placeBets_cases (run apply env fs) call

/-- A contract whose storage is empty. -/
def Env.deployed (liveUntil : Nat) : Env Address := ⟨⟨.empty, liveUntil⟩, []⟩

def oneBet (ledger : Nat) (caller : Address) (key : BytesN 32) : Call Address :=
  ⟨ledger, true, caller, [⟨1, 100⟩], key⟩

/-- A retry and a second caller. -/
def retried : List (Call Nat) :=
  [oneBet 1 0 (.fill 32 7), oneBet 2 0 (.fill 32 7), oneBet 2 1 (.fill 32 7)]

theorem retried_at_most_once :
    outcomesOf (.placeBetsIdem 0 (.fill 32 7)) (Env.deployed 10) retried =
        [.ok, .err .idempotentBatchAlreadyApplied] ∧
      (outcomesOf (.placeBetsIdem 0 (.fill 32 7)) (Env.deployed 10) retried).count .ok ≤ 1 :=
  ⟨by decide, (placeBets_at_most_once (.deployed 10) retried (by decide)).1 0 (.fill 32 7) (by decide)⟩

/-! ### The lifetime of a key -/

/-- The contract under a record of the ledgers in which keys were consumed last. -/
structure Watched (Address : Type) [DecidableEq Address] where
  env : Env Address
  accepted : OrderedMap (DataKey Address) Nat
  now : Nat

def watch (w : Watched Address) (call : Call Address) : Watched Address where
  env := apply w.env call
  accepted := if call.Keyed ∧ (placeBets w.env call).1 = .ok then
    w.accepted.set call.idemKey call.ledger else w.accepted
  now := call.ledger

def Watched.deployed (liveUntil : Nat) : Watched Address := ⟨.deployed liveUntil, .empty, 0⟩

/-- What the documentation of `place_bets` says of the keys consumed so far: a batch with one of
them is rejected for its time to live, and accepted in every later ledger. -/
def Expires (w : Watched Address) : Prop :=
  ∀ call : Call Address, call.Keyed → w.now ≤ call.ledger →
    ∀ ledger, w.accepted.get? call.idemKey = some ledger →
      (placeBets w.env call).1 =
        if call.ledger ≤ ledger + idemKeyTtlLedgers then .err .idempotentBatchAlreadyApplied else .ok

variable (w : Watched Address)

/-- A key is consumed only while the storage holds no key of an earlier ledger, and does not
outlive the new one. -/
def Alone (call : Call Address) : Prop :=
  call.Keyed → w.env.storage.has call.ledger call.idemKey = false →
    w.env.storage.liveUntil ≤ call.ledger + idemKeyTtlLedgers ∧
      ∀ key, w.env.storage.has call.ledger key = true → w.accepted.get? key = some call.ledger

/-- What every run keeps: a consumed key is held by the storage for its time to live. -/
structure Recorded : Prop where
  keyed : ∀ caller key, w.env.consumed (.placeBetsIdem caller key) = true → key ≠ zeroKey
  known : ∀ key, w.env.consumed key = true → ∃ ledger, w.accepted.get? key = some ledger
  past : ∀ key ledger, w.accepted.get? key = some ledger → ledger ≤ w.now
  held : ∀ key ledger, w.accepted.get? key = some ledger → w.now ≤ ledger + idemKeyTtlLedgers →
    w.env.consumed key = true ∧ ledger + idemKeyTtlLedgers ≤ w.env.storage.liveUntil

/-- And, of a run whose keys are consumed alone: the storage dies with each key it holds. -/
structure Timely : Prop extends Recorded w where
  ends : ∀ key ledger, w.env.consumed key = true → w.accepted.get? key = some ledger →
    w.env.storage.liveUntil = ledger + idemKeyTtlLedgers

section Lifetime

variable {w : Watched Address} {call : Call Address}

variable (w call) in
theorem watch_cases :
    (call.Keyed ∧ w.env.storage.has call.ledger call.idemKey = false ∧
      (watch w call).env.storage =
        w.env.storage.consume call.ledger call.idemKey true idemKeyTtlLedgers ∧
      (watch w call).accepted = w.accepted.set call.idemKey call.ledger) ∨
    (¬ (call.Keyed ∧ w.env.storage.has call.ledger call.idemKey = false) ∧
      (watch w call).env.storage = w.env.storage ∧ (watch w call).accepted = w.accepted) := by
  unfold watch apply
  by_cases keyed : call.Keyed
  · simp only [placeBets_keyed keyed, keyed, true_and]
    cases taken : w.env.storage.has call.ledger call.idemKey with
    | true => exact .inr ⟨by simp, rfl, rfl⟩
    | false => exact .inl ⟨rfl, rfl, rfl⟩
  · refine .inr ⟨fun h => keyed h.1, (placeBets_not_keyed keyed w.env w.env).1, ?_⟩
    exact if_neg fun h => keyed h.1

theorem Recorded.deployed (liveUntil : Nat) : Recorded (Watched.deployed liveUntil : Watched Address) where
  keyed _ _ held := by cases held
  known _ held := by cases held
  past _ _ accepted := by cases accepted
  held _ _ accepted := by cases accepted

theorem Recorded.step (inv : Recorded w) (call : Call Address) (late : w.now ≤ call.ledger) :
    Recorded (watch w call) := by
  rcases watch_cases w call with ⟨keyed, _, storage, accepted⟩ | ⟨_, storage, accepted⟩
  · have consumed (key : DataKey Address) : (watch w call).env.consumed key = true ↔
        key = call.idemKey ∨ w.env.storage.has call.ledger key = true := by
      rw [Env.consumed, storage, InstanceStorage.has_consume, Bool.or_eq_true, decide_eq_true_iff]
    have before {key : DataKey Address} (held : w.env.storage.has call.ledger key = true) :
        w.env.consumed key = true := (InstanceStorage.has_iff.mp held).2
    have recorded (key : DataKey Address) : (watch w call).accepted.get? key =
        if key = call.idemKey then some call.ledger else w.accepted.get? key := by
      rw [accepted, OrderedMap.get?_set]
    refine ⟨?_, ?_, ?_, ?_⟩
    · intro caller key held
      rcases (consumed _).mp held with same | held
      · rw [DataKey.placeBetsIdem.injEq] at same
        exact same.2 ▸ keyed.keyed
      · exact inv.keyed caller key (before held)
    · intro key held
      rw [recorded]
      split
      · exact ⟨call.ledger, rfl⟩
      · rename_i other
        exact inv.known key (before (((consumed key).mp held).resolve_left other))
    · intro key ledger found
      rw [recorded] at found
      split at found
      · cases found
        exact le_refl _
      · exact (inv.past key ledger found).trans late
    · intro key ledger found young
      rw [recorded] at found
      rw [consumed, storage, InstanceStorage.liveUntil_consume]
      split at found
      · cases found
        exact ⟨.inl ‹_›, le_max_right _ _⟩
      · obtain ⟨held, live⟩ := inv.held key ledger found (late.trans young)
        exact ⟨.inr (InstanceStorage.has_iff.mpr ⟨young.trans live, held⟩), live.trans (le_max_left _ _)⟩
  · have same (key : DataKey Address) :
        (watch w call).env.consumed key = w.env.consumed key := by
      rw [Env.consumed, storage, Env.consumed]
    refine ⟨?_, ?_, ?_, ?_⟩
    · intro caller key held
      exact inv.keyed caller key (same _ ▸ held)
    · intro key held
      rw [accepted]
      exact inv.known key (same key ▸ held)
    · intro key ledger found
      exact (inv.past key ledger (accepted ▸ found)).trans late
    · intro key ledger found young
      rw [same, storage]
      exact inv.held key ledger (accepted ▸ found) (late.trans young)

/-- A key is rejected for its time to live, whatever other calls there are. -/
theorem rejected_within_ttl (inv : Recorded w) (keyed : call.Keyed) (late : w.now ≤ call.ledger)
    {ledger : Nat} (accepted : w.accepted.get? call.idemKey = some ledger)
    (young : call.ledger ≤ ledger + idemKeyTtlLedgers) :
    (placeBets w.env call).1 = .err .idempotentBatchAlreadyApplied := by
  obtain ⟨held, live⟩ := inv.held call.idemKey ledger accepted (late.trans young)
  rw [placeBets_keyed keyed, if_pos (InstanceStorage.has_iff.mpr ⟨young.trans live, held⟩)]

theorem Timely.step (inv : Timely w) (call : Call Address) (late : w.now ≤ call.ledger)
    (alone : Alone w call) : Timely (watch w call) := by
  refine ⟨inv.toRecorded.step call late, ?_⟩
  rcases watch_cases w call with ⟨keyed, free, storage, accepted⟩ | ⟨_, storage, accepted⟩
  · obtain ⟨short, together⟩ := alone keyed free
    intro key ledger held found
    rw [Env.consumed, storage, InstanceStorage.has_consume, Bool.or_eq_true, decide_eq_true_iff] at held
    rw [accepted, OrderedMap.get?_set] at found
    rw [storage, InstanceStorage.liveUntil_consume, max_eq_right short]
    split at found
    · cases found
      rfl
    · rename_i other
      rw [together key (held.resolve_left other)] at found
      cases found
      rfl
  · intro key ledger held found
    rw [Env.consumed, storage] at held
    rw [storage]
    exact inv.ends key ledger held (accepted ▸ found)

theorem Timely.expires (inv : Timely w) : Expires w := by
  intro call keyed late ledger found
  split
  · rename_i young
    exact rejected_within_ttl inv.toRecorded keyed late found young
  · rename_i old
    have free : ¬ w.env.storage.has call.ledger call.idemKey = true := by
      intro held
      obtain ⟨live, held⟩ := InstanceStorage.has_iff.mp held
      exact old (inv.ends call.idemKey ledger held found ▸ live)
    rw [placeBets_keyed keyed, if_neg free]

/-- A key that expires is not held in any ledger after its time to live. -/
theorem Expires.le_of_held (expires : Expires w) {caller : Address} {key : BytesN 32}
    {ledger later : Nat} (keyed : key ≠ zeroKey)
    (accepted : w.accepted.get? (.placeBetsIdem caller key) = some ledger)
    (late : w.now ≤ later) (held : w.env.storage.has later (.placeBetsIdem caller key) = true) :
    later ≤ ledger + idemKeyTtlLedgers := by
  have proper : (oneBet later caller key).Keyed := ⟨rfl, by simp [oneBet], keyed⟩
  have answer := expires (oneBet later caller key) proper late ledger accepted
  have rejected : (placeBets w.env (oneBet later caller key)).1 =
      .err .idempotentBatchAlreadyApplied := by
    rw [placeBets_keyed proper]
    exact congrArg Prod.fst (if_pos held)
  rw [rejected] at answer
  split at answer
  · assumption
  · cases answer

theorem Recorded.alone (inv : Recorded w) (late : w.now ≤ call.ledger) (expires : Expires (watch w call)) :
    Alone w call := by
  intro keyed free
  rcases watch_cases w call with ⟨_, _, storage, accepted⟩ | ⟨refused, _⟩
  · have held (later : Nat) (key : DataKey Address) : (watch w call).env.storage.has later key = true ↔
        later ≤ max w.env.storage.liveUntil (call.ledger + idemKeyTtlLedgers) ∧
          (key = call.idemKey ∨ w.env.storage.has call.ledger key = true) := by
      rw [InstanceStorage.has_iff, storage, InstanceStorage.liveUntil_consume,
        InstanceStorage.has_consume, Bool.or_eq_true, decide_eq_true_iff]
    constructor
    · have own : (watch w call).accepted.get? call.idemKey = some call.ledger := by
        rw [accepted, OrderedMap.get?_set_self]
      have last : (watch w call).now ≤ max w.env.storage.liveUntil (call.ledger + idemKeyTtlLedgers) :=
        (Nat.le_add_right _ _).trans (le_max_right _ _)
      exact (le_max_left _ _).trans
        (expires.le_of_held keyed.keyed own last ((held _ _).mpr ⟨le_refl _, .inl rfl⟩))
    · rintro ⟨caller, token⟩ before
      have stored := (InstanceStorage.has_iff.mp before).2
      obtain ⟨ledger, found⟩ := inv.known _ stored
      have other : DataKey.placeBetsIdem caller token ≠ call.idemKey := by
        rintro same
        rw [same, free] at before
        cases before
      have kept : (watch w call).accepted.get? (.placeBetsIdem caller token) = some ledger := by
        rw [accepted, OrderedMap.get?_set_of_ne _ _ other, found]
      have bound := expires.le_of_held (inv.keyed caller token stored) kept (Nat.le_add_right _ _)
        ((held (call.ledger + idemKeyTtlLedgers) _).mpr ⟨le_max_right _ _, .inr before⟩)
      have earlier := (inv.past _ _ found).trans late
      rw [found, Nat.le_antisymm earlier (Nat.le_of_add_le_add_right bound)]
  · exact absurd ⟨keyed, free⟩ refused

end Lifetime

/-- From the deployment on, keys expire on their own in every state of a history iff every key
is consumed while the storage holds none of an earlier ledger. -/
theorem expires_iff_alone (liveUntil : Nat) (calls : List (Call Address))
    (ordered : calls.Pairwise fun c d => c.ledger ≤ d.ledger) :
    Along watch Alone (Watched.deployed liveUntil) calls ↔
      ∀ fs, fs <+: calls → Expires (run watch (Watched.deployed liveUntil) fs) := by
  have later {now : Nat} {w : Watched Address} (call : Call Address) (past : w.now ≤ now)
      (late : now ≤ call.ledger) : w.now ≤ call.ledger ∧ (watch w call).now ≤ call.ledger :=
    ⟨past.trans late, le_refl _⟩
  have inOrder : Along watch (fun w call => w.now ≤ call.ledger) (Watched.deployed liveUntil) calls :=
    along_of_invariant_at Call.ledger later (Nat.zero_le 0) (fun _ _ => Nat.zero_le _) ordered
  exact inOrder.iff_always (fun _ call inv late alone => Timely.step inv call late alone)
    (fun _ inv => inv.expires) (fun _ _ inv late expires => inv.toRecorded.alone late expires)
    ⟨Recorded.deployed liveUntil, fun _ _ held => by cases held⟩

/-- A second caller's batch keeps the key of the first one alive. -/
def prolonged : List (Call Nat) := [oneBet 0 0 (.fill 32 7), oneBet 10 1 (.fill 32 7)]

/-- The key of ledger 0 is still rejected five ledgers after its time to live. -/
theorem prolonged_rejected :
    ((run watch (Watched.deployed 0) prolonged).accepted.get? (.placeBetsIdem 0 (.fill 32 7)) = some 0 ∧
      (placeBets (run watch (Watched.deployed 0) prolonged).env
        (oneBet (idemKeyTtlLedgers + 5) 0 (.fill 32 7))).1 = .err .idempotentBatchAlreadyApplied) ∧
    ¬ Expires (run watch (Watched.deployed 0) prolonged) := by
  have found : (run watch (Watched.deployed 0) prolonged).accepted.get?
      (.placeBetsIdem 0 (.fill 32 7)) = some 0 := by decide
  refine ⟨⟨found, by decide⟩, fun expires => ?_⟩
  have held : (run watch (Watched.deployed 0) prolonged).env.storage.has (idemKeyTtlLedgers + 5)
      (.placeBetsIdem 0 (.fill 32 7)) = true := by decide
  exact absurd (expires.le_of_held (by decide) found (by decide) held) (by decide)

/-- Two batches with one key, the second after its time to live. -/
def renewed : List (Call Nat) := [oneBet 0 0 (.fill 32 7), oneBet 17281 0 (.fill 32 7)]

theorem renewed_expires :
    (run watch (Watched.deployed 0) renewed).accepted.get? (.placeBetsIdem 0 (.fill 32 7)) =
      some 17281 ∧ Expires (run watch (Watched.deployed 0) renewed) := by
  refine ⟨by decide, ?_⟩
  have first : Alone (Watched.deployed 0) (oneBet 0 0 (.fill 32 7)) :=
    fun _ _ => ⟨by decide, fun _ held => by cases held⟩
  have second : Alone (watch (Watched.deployed 0) (oneBet 0 0 (.fill 32 7)))
      (oneBet 17281 0 (.fill 32 7)) :=
    fun _ _ => ⟨by decide, fun _ held => absurd (InstanceStorage.has_iff.mp held).1 (by decide)⟩
  exact (expires_iff_alone 0 renewed (by decide)).mp ⟨first, second, trivial⟩ _ List.prefix_rfl

end TalentTrust.Predictify
