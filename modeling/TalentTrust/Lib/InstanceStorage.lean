import TalentTrust.Lib.OrderedMap

/-!
Instance storage of a contract: one ledger entry with one live-until ledger.

The entry holds a map. At a ledger after `liveUntil` it has been evicted, so the
map reads as empty there and a write starts a new one. `extendTtl` raises the
live-until ledger of the whole entry, and with it the lifetime of every key
(`has_consume`).
-/

namespace TalentTrust.Lib

universe u v

structure InstanceStorage (κ : Type u) (α : Type v) where
  entries : OrderedMap κ α
  liveUntil : Nat

namespace InstanceStorage

variable {κ : Type u} {α : Type v} [DecidableEq κ] (s : InstanceStorage κ α) (ledger : Nat)

/-- What the entry holds at a ledger. -/
def visible : OrderedMap κ α :=
  if ledger ≤ s.liveUntil then s.entries else .empty

def has (k : κ) : Bool := (s.visible ledger).has k

def set (k : κ) (v : α) : InstanceStorage κ α :=
  { s with entries := (s.visible ledger).set k v }

/-- An entry with at most `threshold` ledgers left lives for `extendTo` more, if that is later. -/
def extendTtl (threshold extendTo : Nat) : InstanceStorage κ α :=
  if s.liveUntil - ledger ≤ threshold ∧ s.liveUntil < ledger + extendTo then
    { s with liveUntil := ledger + extendTo }
  else s

/-- A key is written, and the entry is made to live for `ttl` ledgers. -/
def consume (k : κ) (v : α) (ttl : Nat) : InstanceStorage κ α :=
  (s.set ledger k v).extendTtl ledger ttl ttl

theorem has_eq (k : κ) : s.has ledger k = (decide (ledger ≤ s.liveUntil) && s.entries.has k) := by
  unfold has visible
  by_cases live : ledger ≤ s.liveUntil
  · rw [if_pos live, decide_eq_true live, Bool.true_and]
  · rw [if_neg live, decide_eq_false live]
    rfl

theorem has_iff {s : InstanceStorage κ α} {ledger : Nat} {k : κ} :
    s.has ledger k = true ↔ ledger ≤ s.liveUntil ∧ s.entries.has k = true := by
  rw [has_eq, Bool.and_eq_true, decide_eq_true_iff]

variable (k j : κ) (v : α) (ttl : Nat)

omit [DecidableEq κ] in
@[simp] theorem entries_extendTtl (threshold extendTo : Nat) :
    (s.extendTtl ledger threshold extendTo).entries = s.entries := by
  unfold extendTtl
  split <;> rfl

omit [DecidableEq κ] in
/-- With one number for both, the live-until ledger is raised to `ttl` ledgers from now. -/
theorem liveUntil_extendTtl :
    (s.extendTtl ledger ttl ttl).liveUntil = max s.liveUntil (ledger + ttl) := by
  unfold extendTtl
  split
  · rename_i low
    exact (Nat.max_eq_right (Nat.le_of_lt low.2)).symm
  · rename_i high
    refine (Nat.max_eq_left ?_).symm
    by_contra late
    exact high ⟨by omega, by omega⟩

theorem liveUntil_consume : (s.consume ledger k v ttl).liveUntil = max s.liveUntil (ledger + ttl) :=
  liveUntil_extendTtl _ _ _

theorem has_consume : (s.consume ledger k v ttl).entries.has j = (decide (j = k) || s.has ledger j) := by
  rw [consume, entries_extendTtl, set, OrderedMap.has, OrderedMap.get?_set, has, OrderedMap.has]
  by_cases same : j = k
  · simp [same]
  · simp [same]

end InstanceStorage

end TalentTrust.Lib
